import CppTransport.Translator.ArgumentLists
import CppTransport.Translator.LongestMatch
import CppTransport.Translator.ReplacementRules

/-!
# The number of indices of a macro

A macro of a template line is given a list of indices, of any length. Whether there are as many as its
rule declares is checked when the macro is evaluated. But the rule has seen the list before that: when it
was asked for its unroll status, and when it has prepared its tensor.

## What is proved

`safe_iff`: when a subscript stays within the list, and an error is reported or the rule is called with as
many indices as it declares. In a model with a nontrivial metric a rule subscripts its list of indices
while the line is tokenized. In any model `$FIELD` and `$COORDINATE` do so before they prepare. A tensor
that is prepared for a wrong number of indices throws what nothing catches (`empty_list_undefined`).
-/

namespace CppTransport.Translator.ReplacementRules

open Library Tokenizer

/-! ### Lists of indices -/

section Lists

variable {list : List index_literal}

theorem get_variance_of_lt {i : ℕ} (h : i < list.length) : get_variance list i = .ok list[i].type := by
  rw [get_variance, List.getElem?_eq_getElem h]

theorem get_variance_of_le {i : ℕ} (h : list.length ≤ i) : get_variance list i = .error .undefined := by
  rw [get_variance, List.getElem?_eq_none h]

theorem subscript_of_le {n : ℕ} (h : n ≤ list.length) : subscript list n = .ok () := by
  induction n with
  | zero => rfl
  | succ n ih =>
    rw [subscript, ih (by omega), get_variance_of_lt h]
    rfl

end Lists

/-! ### Rules -/

theorem tensor_rule.tensor_indices_eq (t : tensor_rule) : t.tensor_indices = t.num_indices := by
  cases t <;> rfl

theorem tensor_rule.length_idx_classes (t : tensor_rule) : t.idx_classes.length = t.num_indices := by
  cases t <;> rfl

/-- The variances for `$CONNECTION`. -/
def connexion_variances : List variance := [.contravariant, .covariant, .covariant]

/-- An index of `$CONNECTION` is not placed as it is to be. -/
def Misplaced (list : List index_literal) : Prop :=
  ∃ p ∈ (list.map (·.type)).zip connexion_variances, p.1 ≠ p.2

instance (list : List index_literal) : Decidable (Misplaced list) :=
  inferInstanceAs (Decidable (∃ p ∈ (list.map (·.type)).zip connexion_variances, p.1 ≠ p.2))

theorem check_connexion_eq (list : List index_literal) : check_connexion list =
    if Misplaced list then fail (.rule_apply_fail ERROR_CONNEXION_INDICES)
    else if list.length < 3 then .error .undefined else .ok () := by
  match list with
  | [] => rfl
  | [a] =>
    simp only [check_connexion, check_placement, get_variance, Misplaced, connexion_variances, fail]
    by_cases ha : a.type = .contravariant <;> simp [ha]
  | [a, b] =>
    simp only [check_connexion, check_placement, get_variance, Misplaced, connexion_variances, fail]
    by_cases ha : a.type = .contravariant <;> by_cases hb : b.type = .covariant <;> simp [ha, hb]
  | a :: b :: c :: rest =>
    simp only [check_connexion, check_placement, get_variance, Misplaced, connexion_variances, fail]
    by_cases ha : a.type = .contravariant <;> by_cases hb : b.type = .covariant <;>
      by_cases hc : c.type = .covariant <;> simp [ha, hb, hc, pure, Except.pure]

/-- The indices of `$METRIC` are mixed. -/
def Mixed : List index_literal → Prop
  | a :: b :: _ => a.type ≠ b.type
  | _ => False

instance : (list : List index_literal) → Decidable (Mixed list)
  | a :: b :: _ => inferInstanceAs (Decidable (a.type ≠ b.type))
  | [] | [_] => .isFalse id

theorem check_metric_eq (list : List index_literal) : check_metric list =
    if Mixed list then fail (.rule_apply_fail ERROR_METRIC_RULE_MIXED_INDICES)
    else if list.length < 2 then .error .undefined else .ok () := by
  match list with
  | [] => rfl
  | [a] => simp [check_metric, get_variance, Mixed]
  | a :: b :: rest =>
    by_cases h : a.type = b.type <;> simp [check_metric, get_variance, Mixed, fail, h, pure, Except.pure]

/-! ### Unroll status -/

/-- The list is long enough to be asked for the unroll status. -/
def tensor_rule.Queryable (list : List index_literal) : tensor_rule → Prop
  | replace_parameter | replace_field | replace_momenta | replace_coordinate | replace_dN1 | replace_dN2 => True
  | replace_connexion => Misplaced list ∨ 3 ≤ list.length
  | replace_C => .covariant ∈ (list.take 3).map (·.type) ∨ 3 ≤ list.length
  | t => t.num_indices ≤ list.length

/-- The rule throws when it is asked for its unroll status. -/
def tensor_rule.Refuses (list : List index_literal) : tensor_rule → Prop
  | replace_metric => Mixed list
  | replace_connexion => Misplaced list
  | _ => False

/-- What comes of asking a rule for its unroll status. -/
inductive Asked (queryable refuses : Prop) : Except Thrown unroll_state → Prop where
  | ok (u : unroll_state) (hq : queryable) (hr : ¬ refuses) : Asked queryable refuses (.ok u)
  | refused (what : String) (hr : refuses) (hq : queryable) :
    Asked queryable refuses (fail (.rule_apply_fail what))
  | undefined (hq : ¬ queryable) : Asked queryable refuses (.error .undefined)

theorem asked1 {list : List index_literal} {f : variance → unroll_state} :
    Asked (1 ≤ list.length) False (do let i ← get_variance list 0; return f i) := by
  match list with
  | [] => exact .undefined (by simp)
  | a :: rest => exact .ok (f a.type) (by simp) id

theorem asked2 {list : List index_literal} {f : variance → variance → unroll_state} :
    Asked (2 ≤ list.length) False (do let i ← get_variance list 0; let j ← get_variance list 1; return f i j) := by
  match list with
  | [] | [_] => exact .undefined (by simp)
  | a :: b :: rest => exact .ok (f a.type b.type) (by simp) id

theorem asked3 {list : List index_literal} {f : variance → variance → variance → unroll_state} :
    Asked (3 ≤ list.length) False
      (do let i ← get_variance list 0; let j ← get_variance list 1; let k ← get_variance list 2; return f i j k) := by
  match list with
  | [] | [_] | [_, _] => exact .undefined (by simp)
  | a :: b :: c :: rest => exact .ok (f a.type b.type c.type) (by simp) id

/-- Indices are looked at up to the first one of the variance. -/
theorem any_index_eq (v : variance) {list : List index_literal} (n : ℕ) {i : ℕ} (hi : i ≤ list.length) :
    any_index v list (List.range' i n) =
      if v ∈ ((list.drop i).take n).map (·.type) then .ok true
      else if list.length < i + n then .error .undefined else .ok false := by
  induction n generalizing i with
  | zero =>
    rw [if_neg (by simp), if_neg (by omega)]
    rfl
  | succ n ih =>
    rw [List.range'_succ, any_index]
    obtain hend | hlt := hi.eq_or_lt
    · rw [get_variance_of_le hend.ge, if_neg (by simp [hend]), if_pos (by omega)]
      rfl
    · rw [get_variance_of_lt hlt, ok_bind, List.drop_eq_getElem_cons hlt, List.take_succ_cons, List.map_cons, ih hlt]
      by_cases hv : list[i].type = v
      · rw [if_pos hv, if_pos (by simp [hv])]
        rfl
      · rw [if_neg hv, show i + 1 + n = i + (n + 1) by omega]
        simp [Ne.symm hv]

/-- The status for `$C_TENSOR` is found when an index is covariant, whatever is behind it. -/
theorem asked_C (res : resources) (list : List index_literal) :
    Asked (tensor_rule.replace_C.Queryable list) False (nontrivial_metric.C.get_unroll res list) := by
  have hany := any_index_eq .covariant 3 (Nat.zero_le list.length)
  rw [nontrivial_metric.C.get_unroll, show [0, 1, 2] = List.range' 0 3 from rfl, hany, List.drop_zero]
  split
  · rename_i hcovariant
    exact .ok _ (.inl hcovariant) id
  · rename_i hcovariant
    split
    · rename_i hlength
      exact .undefined fun hq => hq.elim hcovariant (by omega)
    · exact .ok _ (.inr (by omega)) id

theorem asked_tensor (res : resources) (t : tensor_rule) (list : List index_literal) :
    Asked (t.Queryable list) (t.Refuses list) (t.nontrivial_unroll res list) := by
  cases t with
  | replace_parameter | replace_field | replace_momenta | replace_coordinate | replace_dN1 | replace_dN2 =>
    exact .ok _ trivial id
  | replace_SR_velocity | replace_dV | replace_U1 | replace_zeta1 => exact asked1
  | replace_ddV | replace_M | replace_Riemann_A2 | replace_U2 | replace_zeta2 => exact asked2
  | replace_dddV | replace_A | replace_Atilde | replace_B | replace_Riemann_A3 | replace_Riemann_B3 | replace_U3 =>
    exact asked3
  | replace_C => exact asked_C res list
  | replace_metric =>
    rw [tensor_rule.nontrivial_unroll, replace_metric.get_unroll, check_metric_eq]
    split
    · rename_i hmixed
      refine .refused _ hmixed ?_
      match list, hmixed with
      | a :: b :: rest, _ => exact Nat.le_add_left _ _
    · rename_i hmixed
      split
      · exact .undefined (by simpa [tensor_rule.Queryable, tensor_rule.num_indices] using ‹list.length < 2›)
      · have hlength : 2 ≤ list.length := by omega
        rw [ok_bind, get_variance_of_lt (by omega), ok_bind]
        split <;> exact .ok _ hlength hmixed
  | replace_connexion =>
    rw [tensor_rule.nontrivial_unroll, replace_connexion.get_unroll, check_connexion_eq]
    split
    · exact .refused _ ‹_› (.inl ‹_›)
    · rename_i hplaced
      split
      · exact .undefined fun hq => hq.elim hplaced (by omega)
      · exact .ok _ (.inr (by omega)) hplaced

/-- The list is long enough for the rule to be asked for its unroll status. -/
def replacement_rule_index.Queryable (res : resources) (list : List index_literal) : replacement_rule_index → Prop
  | tensor t => res.canonical = true ∨ t.Queryable list
  | user_macro_rule _ _ _ => True

/-- The rule throws when it is asked for its unroll status. -/
def replacement_rule_index.Refuses (res : resources) (list : List index_literal) : replacement_rule_index → Prop
  | tensor t => res.canonical = false ∧ t.Refuses list
  | user_macro_rule _ _ _ => False

theorem asked (res : resources) (r : replacement_rule_index) (list : List index_literal) :
    Asked (r.Queryable res list) (r.Refuses res list) (r.get_unroll res list) := by
  cases r with
  | user_macro_rule name n status => exact .ok status trivial id
  | tensor t =>
    rw [replacement_rule_index.get_unroll, tensor_rule.get_unroll]
    split
    · rename_i hcanonical
      exact .ok _ (.inl hcanonical) fun h => absurd h.1 (by simp [hcanonical])
    · rename_i hcanonical
      rw [Bool.not_eq_true] at hcanonical
      simpa [replacement_rule_index.Queryable, replacement_rule_index.Refuses, hcanonical] using asked_tensor res t list

/-! ### Preparation -/

namespace tensor_rule

/-- The list is long enough for the rule to prepare. -/
def Preparable (list : List index_literal) : tensor_rule → Prop
  | replace_field | replace_coordinate => list ≠ []
  | _ => True

/-- The rule reports that its first index is covariant. -/
def Rejects (list : List index_literal) : tensor_rule → Prop
  | replace_field | replace_coordinate => ∃ a ∈ list.head?, a.type = .covariant
  | _ => False

/-- What the rule checks has been checked when it was asked for its unroll status. -/
def Accepts (list : List index_literal) : tensor_rule → Prop
  | replace_metric => replace_metric.Queryable list ∧ ¬ Mixed list
  | replace_connexion => replace_connexion.Queryable list ∧ ¬ Misplaced list
  | _ => True

/-- What comes of the check. -/
inductive Checked (preparable rejects : Prop) : Except Thrown Unit → Prop where
  | ok (hp : preparable) (hr : ¬ rejects) : Checked preparable rejects (.ok ())
  | rejected (what : String) (hp : preparable) (hr : rejects) :
    Checked preparable rejects (fail (.rule_apply_fail what))
  | undefined (hp : ¬ preparable) : Checked preparable rejects (.error .undefined)

theorem checked_contravariant (what : String) (list : List index_literal) :
    Checked (list ≠ []) (∃ a ∈ list.head?, a.type = .covariant) (check_contravariant what list) := by
  match list with
  | [] => exact .undefined (by simp)
  | a :: rest =>
    by_cases ha : a.type = .covariant
    · simp only [check_contravariant, get_variance, List.getElem?_cons_zero, ok_bind, ha, if_true]
      exact .rejected what (by simp) (by simpa using ha)
    · simp only [check_contravariant, get_variance, List.getElem?_cons_zero, ok_bind, ha, if_false]
      exact .ok (by simp) (by simpa using ha)

theorem checked (t : tensor_rule) (list : List index_literal) (h : t.Accepts list) :
    Checked (t.Preparable list) (t.Rejects list) (t.check list) := by
  cases t with
  | replace_field => exact checked_contravariant _ list
  | replace_coordinate => exact checked_contravariant _ list
  | replace_metric =>
    have hlength : ¬ list.length < 2 := not_lt.mpr h.1
    rw [check, check_metric_eq, if_neg h.2, if_neg hlength]
    exact .ok trivial id
  | replace_connexion =>
    have hlength : ¬ list.length < 3 := not_lt.mpr (h.1.resolve_left h.2)
    rw [check, check_connexion_eq, if_neg h.2, if_neg hlength]
    exact .ok trivial id
  | _ => exact .ok trivial id

/-- With as many indices as it declares, a rule does not subscript behind them. -/
theorem check_ne_undefined {t : tensor_rule} {list : List index_literal} (h : list.length = t.num_indices) :
    t.check list ≠ .error .undefined := by
  have contravariant : ∀ what, list.length = 1 → check_contravariant what list ≠ .error .undefined := by
    intro what hlength hundefined
    have hchecked := checked_contravariant what list
    rw [hundefined] at hchecked
    cases hchecked with
    | undefined hp => exact hp (by rintro rfl; cases hlength)
  cases t with
  | replace_field | replace_coordinate => exact contravariant _ h
  | replace_metric =>
    have hlength : ¬ list.length < 2 := not_lt.mpr h.ge
    rw [check, check_metric_eq, if_neg hlength]
    split <;> simp [fail]
  | replace_connexion =>
    have hlength : ¬ list.length < 3 := not_lt.mpr h.ge
    rw [check, check_connexion_eq, if_neg hlength]
    split <;> simp [fail]
  | _ => simp [check]

end tensor_rule

theorem bind_ne_undefined {α : Type} {m : Except Thrown Unit} {k : Unit → Except Thrown α}
    (hm : m ≠ .error .undefined) (hk : k () ≠ .error .undefined) : (m >>= k) ≠ .error .undefined := by
  cases m with
  | ok _ => simpa using hk
  | error e => simpa using hm

theorem method_ne_undefined {r : replacement_rule_index} {list : List index_literal}
    (h : list.length = r.num_indices) (map : Bool) (hook : Hook) : r.method map list hook ≠ .error .undefined := by
  cases r with
  | user_macro_rule name n status => cases hook <;> simp [replacement_rule_index.method]
  | tensor t =>
    have h : list.length = t.num_indices := h
    have hcheck : t.check list ≠ .error .undefined := tensor_rule.check_ne_undefined h
    have hsubscript : subscript list t.num_indices = .ok () := subscript_of_le h.ge
    cases hook with
    | pre_hook =>
      refine bind_ne_undefined hcheck ?_
      rw [tensor_rule.compute, t.tensor_indices_eq, if_neg (by simpa using h), hsubscript]
      simp
    | unroll =>
      simp only [replacement_rule_index.method, tensor_rule.unroll]
      split
      · simp [hsubscript]
      · simp [fail]
    | roll =>
      have hroll : (do t.check list; subscript list t.num_indices) ≠ .error .undefined :=
        bind_ne_undefined hcheck (by simp [hsubscript])
      cases t with
      | replace_dN1 | replace_dN2 => simp [replacement_rule_index.method, tensor_rule.roll, fail]
      | _ => exact hroll

/-! ### Evaluation -/

/-- An error has been reported, or the rule has been called, with as many indices as it declares. -/
def Fine (n : ℕ) (s : token_state) : Prop := s.errors ≠ [] ∨ s.calls ≠ [] ∧ ∀ c ∈ s.calls, c.indices.length = n

/-- No error has been reported, but the rule has not been called with another number of indices. -/
def Unspoiled (n : ℕ) (s : token_state) : Prop := s.errors ≠ [] ∨ ∀ c ∈ s.calls, c.indices.length = n

theorem Fine.unspoiled {n : ℕ} {s : token_state} (h : Fine n s) : Unspoiled n s := h.imp_right And.right

/-- Between two evaluations. -/
structure Settled (initialized : Bool) (n : ℕ) (s : token_state) : Prop where
  initialized : s.initialized = initialized
  fine : Fine n s

section Catching

variable {α : Type} {handler : exception → Option (Eval α)} {m : Eval α} {s s' : token_state}

theorem catching_ok {a : α} (h : m s = .ok a s') : catching handler m s = .ok a s' := tryCatchSome_ok h

theorem catching_undefined (h : m s = .error .undefined s') : catching handler m s = .error .undefined s' := by
  rw [catching, tryCatchSome_error h]

theorem catching_none {e : exception} (h : m s = .error (.exception e) s') (hnone : handler e = none) :
    catching handler m s = .error (.exception e) s' := by
  rw [catching, tryCatchSome_error h]
  simp only [hnone]

theorem catching_some {e : exception} {k : Eval α} (h : m s = .error (.exception e) s') (hsome : handler e = some k) :
    catching handler m s = k s' := by
  rw [catching, tryCatchSome_error h]
  simp only [hsome]

end Catching

/-- The computation keeps to what is within the list, and keeps `P`. -/
def Keeps {α : Type} (P : token_state → Prop) (m : Eval α) : Prop :=
  ∀ s, P s → wp m (fun _ => P) (fun e s' => e ≠ .undefined ∧ P s') s

namespace Keeps

variable {α β : Type} {P : token_state → Prop} {m : Eval α}

theorem pure (a : α) : Keeps P (pure a) := fun _ h => h

theorem bind {f : α → Eval β} (hm : Keeps P m) (hf : ∀ a, Keeps P (f a)) : Keeps P (m >>= f) := by
  intro s hs
  rw [wp_bind]
  exact wp_imp (hm s hs) (fun a s' hs' => hf a s' hs') fun _ _ => id

theorem get_bind {f : token_state → Eval β} (hf : ∀ s, Keeps P (f s)) : Keeps P (get >>= f) :=
  bind (fun _ h => h) hf

theorem modify {f : token_state → token_state} (h : ∀ s, P s → P (f s)) : Keeps P (modify f) := fun s hs => h s hs

theorem lift {x : Except Thrown α} (h : x ≠ .error .undefined) : Keeps P (lift x) := by
  intro s hs
  cases x with
  | ok a => exact hs
  | error e => exact ⟨fun he => h (by rw [he]), hs⟩

theorem lift_bind {x : Except Thrown α} {f : α → Eval β} (h : x ≠ .error .undefined)
    (hf : ∀ a, x = .ok a → Keeps P (f a)) : Keeps P (ReplacementRules.lift x >>= f) := by
  cases x with
  | ok a => exact hf a rfl
  | error e => exact fun s hs => ⟨fun he => h (by rw [he]), hs⟩

/-- What is thrown, and what is done about it, keeps `P`. -/
theorem wp_catching {handler : exception → Option (Eval α)} {s : token_state}
    (hm : wp m (fun _ => P) (fun e s' => e ≠ .undefined ∧ P s') s) (hh : ∀ e h, handler e = some h → Keeps P h) :
    wp (catching handler m) (fun _ => P) (fun e s' => e ≠ .undefined ∧ P s') s := by
  cases hrun : m s with
  | ok a s' =>
    rw [wp_iff_of_ok (catching_ok hrun)]
    have hok := wp_ok hm hrun
    exact hok
  | error e s' =>
    obtain ⟨hne, hs'⟩ := wp_error hm hrun
    cases e with
    | undefined => exact absurd rfl hne
    | exception e =>
      cases hhandler : handler e with
      | none =>
        rw [wp_iff_of_error (catching_none hrun hhandler)]
        exact ⟨hne, hs'⟩
      | some h =>
        rw [wp, catching_some hrun hhandler]
        exact hh e h hhandler s' hs'

theorem catching {handler : exception → Option (Eval α)} (hm : Keeps P m)
    (hh : ∀ e h, handler e = some h → Keeps P h) : Keeps P (catching handler m) :=
  fun s hs => wp_catching (hm s hs) hh

end Keeps

/-- More errors are reported. -/
theorem Settled.reported {initialized : Bool} {n : ℕ} {s s' : token_state} (h : Settled initialized n s)
    (herrors : s.errors <+: s'.errors) (hcalls : s'.calls = s.calls) (hinitialized : s'.initialized = s.initialized) :
    Settled initialized n s' := by
  refine ⟨hinitialized.trans h.initialized, h.fine.imp (fun hne hnil => hne ?_) fun hright => hcalls ▸ hright⟩
  exact List.prefix_nil.mp (hnil ▸ herrors)

theorem validate_args_ne_undefined (r : replacement_rule_index) (args : List macro_argument) :
    r.validate_args args ≠ .error .undefined := by
  rw [replacement_rule_index.validate_args]
  split <;> simp [fail]

theorem validate_classes_ne_undefined (r : replacement_rule_index) (classes : List index_class)
    (list : List index_literal) : r.validate_classes classes list ≠ .error .undefined := by
  fun_induction replacement_rule_index.validate_classes r classes list <;> simp_all [fail]

theorem validate_indices_ne_undefined (r : replacement_rule_index) (list : List index_literal) :
    r.validate_indices list ≠ .error .undefined := by
  rw [replacement_rule_index.validate_indices]
  split
  · simp [fail]
  · exact validate_classes_ne_undefined r _ list

theorem length_of_validate_indices {r : replacement_rule_index} {list : List index_literal}
    (h : r.validate_indices list = .ok ()) : list.length = r.num_indices := by
  rw [replacement_rule_index.validate_indices] at h
  split at h
  · cases h
  · rename_i hcount
    by_contra hne
    exact hcount (.inl hne)

namespace index_macro_token

variable {bodies : Bodies} {r : replacement_rule_index} {args : List macro_argument} {list : List index_literal}
  {span : ℕ × ℕ} {b : Bool} {n : ℕ}

theorem keeps_report (msg : String) : Keeps (Settled b n) (report msg span) :=
  .modify fun _ hs => hs.reported (List.prefix_append _ _) rfl rfl

theorem keeps_error (msg : String) : Keeps (Settled b n) (error span msg) := by
  refine .get_bind fun s => ?_
  have hmodify : Keeps (Settled b n) (do
      modify fun s => { s with num_errors := s.num_errors + 1 }
      modify fun s => { s with silent := s.silent || s.num_errors ≥ MAX_TOKEN_ERRORS }) :=
    .bind (.modify fun _ hs => hs.reported (List.prefix_refl _) rfl rfl) fun _ =>
      .modify fun _ hs => hs.reported (List.prefix_refl _) rfl rfl
  cases s.silent with
  | true => exact hmodify
  | false => exact .bind (keeps_report msg) fun _ => hmodify

theorem keeps_once {e : exception} {h : Eval Unit} (he : once span e = some h) : Keeps (Settled b n) h := by
  cases e with
  | argument_mismatch what =>
    obtain rfl := Option.some.inj he
    refine .get_bind fun s => ?_
    cases s.argument_error with
    | true => exact .pure ()
    | false => exact .bind (keeps_error what) fun _ => .modify fun _ hs => hs.reported (List.prefix_refl _) rfl rfl
  | index_mismatch what idx_span =>
    obtain rfl := Option.some.inj he
    refine .get_bind fun s => ?_
    cases s.index_error with
    | true => exact .pure ()
    | false => exact .bind (keeps_report what) fun _ => .modify fun _ hs => hs.reported (List.prefix_refl _) rfl rfl
  | rule_apply_fail what =>
    obtain rfl := Option.some.inj he
    exact keeps_error what
  | _ => cases he

/-- The call of a method with as many indices as the rule declares. -/
theorem wp_call {s : token_state} (h : list.length = r.num_indices) (hook : Hook) (values : List ℕ)
    (hb : s.initialized = b) (hs : Unspoiled r.num_indices s) :
    wp (call bodies r args list hook values) (fun _ => Settled b r.num_indices)
      (fun e s' => e ≠ .undefined ∧ Settled b r.num_indices s') s := by
  have hsettled : Settled b r.num_indices { s with calls := s.calls ++ [⟨hook, r, args, list, values⟩] } := by
    refine ⟨hb, hs.imp id fun hcalls => ⟨by simp, fun c hc => ?_⟩⟩
    obtain hc | hc := List.mem_append.mp hc
    · exact hcalls c hc
    · rw [List.mem_singleton.mp hc, h]
  have hkeeps : ∀ map, Keeps (Settled b r.num_indices) (do
      lift (r.method map list hook)
      lift ((bodies ⟨hook, r, args, list, values⟩).mapError Thrown.exception)) := fun map => by
    refine .lift_bind (method_ne_undefined h _ _) fun _ _ => .lift ?_
    cases bodies ⟨hook, r, args, list, values⟩ <;> simp [Except.mapError]
  exact hkeeps s.map _ hsettled

theorem keeps_call (h : list.length = r.num_indices) (hook : Hook) (values : List ℕ) :
    Keeps (Settled b r.num_indices) (call bodies r args list hook values) :=
  fun _ hs => wp_call h hook values hs.initialized hs.fine.unspoiled

theorem keeps_rule_unroll (values : List ℕ) :
    Keeps (Settled b r.num_indices) (rule_unroll bodies r args list values) :=
  .lift_bind (validate_args_ne_undefined r args) fun _ _ =>
    .lift_bind (validate_indices_ne_undefined r list) fun _ hvalid => keeps_call (length_of_validate_indices hvalid) _ _

theorem keeps_rule_roll : Keeps (Settled b r.num_indices) (rule_roll bodies r args list) :=
  .lift_bind (validate_args_ne_undefined r args) fun _ _ =>
    .lift_bind (validate_indices_ne_undefined r list) fun _ hvalid => keeps_call (length_of_validate_indices hvalid) _ _

theorem keeps_convert {m : Eval (List Char)} (hm : Keeps (Settled b n) m) : Keeps (Settled b n) (convert m) :=
  hm.bind fun _ => .modify fun _ hs => hs.reported (List.prefix_refl _) rfl rfl

/-- When the rule has prepared, the token can be evaluated for values. -/
theorem keeps_evaluate_unroll (a : Char → ℕ) :
    Keeps (Settled true r.num_indices) (evaluate_unroll bodies r args list span a) := by
  have hpre : Keeps (Settled true r.num_indices) (invoke_pre_handler bodies r args list span) := by
    intro s hs
    simp only [invoke_pre_handler, wp_bind, wp_get, hs.initialized]
    exact hs
  exact hpre.bind fun _ => .catching (keeps_convert (keeps_rule_unroll _)) fun _ _ => keeps_once

theorem keeps_rolled {e : exception} {h : Eval Unit} (he : rolled span e = some h) : Keeps (Settled b n) h := by
  cases e with
  | rule_apply_fail what =>
    obtain rfl := Option.some.inj he
    exact keeps_error _
  | resource_failure what =>
    obtain rfl := Option.some.inj he
    exact keeps_error _
  | _ => cases he

theorem keeps_evaluate_roll : Keeps (Settled b r.num_indices) (evaluate_roll bodies r args list span) :=
  .catching (keeps_convert keeps_rule_roll) fun _ _ => keeps_rolled

section Run

variable (bodies r args list span)

/-- Evaluate the token for values, one after the other. -/
def unroll_all : List (Char → ℕ) → Eval Unit
  | [] => return ()
  | a :: more => do
    evaluate_unroll bodies r args list span a
    unroll_all more

/-- Evaluate the token in loops. -/
def roll_all : ℕ → Eval Unit
  | 0 => return ()
  | n + 1 => do
    evaluate_roll bodies r args list span
    roll_all n

/-- What comes of the preparation, when there are as many arguments as there are to be. -/
def prepared (map : Bool) : Except Thrown (List Char) := do
  r.method map list .pre_hook
  (bodies ⟨.pre_hook, r, args, list, []⟩).mapError Thrown.exception

end Run

theorem keeps_unroll_all (more : List (Char → ℕ)) :
    Keeps (Settled true r.num_indices) (unroll_all bodies r args list span more) := by
  induction more with
  | nil => exact .pure ()
  | cons a more ih => exact (keeps_evaluate_unroll a).bind fun _ => ih

theorem keeps_roll_all (n : ℕ) : Keeps (Settled b r.num_indices) (roll_all bodies r args list span n) := by
  induction n with
  | zero => exact .pure ()
  | succ n ih => exact keeps_evaluate_roll.bind fun _ => ih

/-- The token has not been evaluated. -/
structure Fresh (s : token_state) : Prop where
  calls : s.calls = []
  silent : s.silent = false
  initialized : s.initialized = false
  argument_error : s.argument_error = false
  index_error : s.index_error = false

/-- Exceptions that are reported. -/
def caught : exception → Bool
  | .argument_mismatch _ | .index_mismatch _ _ | .rule_apply_fail _ => true
  | _ => false

theorem wp_error_first {s : token_state} (h : s.silent = false) (msg : String) :
    wp (error span msg) (fun _ s' => s'.errors ≠ [] ∧ s'.initialized = s.initialized) (fun _ _ => False) s := by
  simp [error, h, report]

/-- The first exception that can be reported is reported. -/
theorem once_first (span : ℕ × ℕ) {s : token_state} {e : exception} (hsilent : s.silent = false)
    (hargs : s.argument_error = false) (hindex : s.index_error = false) (he : caught e = true) :
    ∃ h, once span e = some h ∧
      wp h (fun _ s' => s'.errors ≠ [] ∧ s'.initialized = s.initialized) (fun _ _ => False) s := by
  cases e with
  | argument_mismatch what =>
    refine ⟨_, rfl, ?_⟩
    simp only [wp_bind, wp_get, hargs, Bool.not_false, if_true]
    exact wp_imp (wp_error_first hsilent what) (fun _ _ => id) fun _ _ => id
  | index_mismatch what idx_span =>
    refine ⟨_, rfl, ?_⟩
    simp [hindex, report]
  | rule_apply_fail what => exact ⟨_, rfl, wp_error_first hsilent what⟩
  | _ => cases he

theorem once_eq_none {e : exception} (he : caught e = false) : once span e = none := by
  cases e with
  | resource_failure what => rfl
  | tensor_exception => rfl
  | _ => cases he

theorem pre_eq (hargs : r.validate_args args = .ok ()) (s : token_state) : pre bodies r args list s =
    match prepared bodies r args list s.map with
    | .ok _ => .ok () { s with calls := s.calls ++ [⟨.pre_hook, r, args, list, []⟩], map := true }
    | .error e => .error e { s with calls := s.calls ++ [⟨.pre_hook, r, args, list, []⟩] } := by
  have hcall : call bodies r args list .pre_hook [] s =
      lift (prepared bodies r args list s.map) { s with calls := s.calls ++ [⟨.pre_hook, r, args, list, []⟩] } := by
    rw [prepared]
    change (do lift (r.method s.map list .pre_hook); lift _ : Eval (List Char)) _ = _
    cases r.method s.map list .pre_hook <;> rfl
  rw [pre, hargs]
  change (do let _ ← call bodies r args list .pre_hook []; modify _ : Eval Unit) s = _
  simp only [bind, EStateM.bind, hcall]
  cases prepared bodies r args list s.map <;> rfl

theorem validate_args_iff : r.validate_args args = .ok () ↔ args.length = r.num_args := by
  rw [replacement_rule_index.validate_args]
  split <;> simp_all [fail]

/-- With a wrong number of indices an error is reported, unless one has been reported before. -/
theorem wp_wrong_count {s : token_state} (hsilent : s.silent = false) (hargs : s.argument_error = false)
    (hindex : s.index_error = false) (h : args.length = r.num_args) (hcount : list.length ≠ r.num_indices)
    (values : List ℕ) : wp (catching (once span) (convert (rule_unroll bodies r args list values)))
      (fun _ s' => s'.errors ≠ [] ∧ s'.initialized = s.initialized) (fun _ _ => False) s := by
  obtain ⟨what, hwhat⟩ : ∃ what, r.validate_indices list = fail (.rule_apply_fail what) := by
    rw [replacement_rule_index.validate_indices, if_pos (.inl hcount)]
    exact ⟨_, rfl⟩
  have hrun : convert (rule_unroll bodies r args list values) s = .error (.exception (.rule_apply_fail what)) s := by
    rw [convert, rule_unroll, validate_args_iff.mpr h, hwhat]
    rfl
  obtain ⟨handler, hhandler, hreports⟩ :=
    once_first span (e := .rule_apply_fail what) hsilent hargs hindex rfl
  rw [wp, catching_some hrun hhandler]
  exact hreports

/-- The evaluation ends, or an exception ends it, as it is to be. -/
def Ends (n : ℕ) (m : Eval Unit) : token_state → Prop :=
  wp m (fun _ => Fine n) fun e s' => e ≠ .undefined ∧ Fine n s'

theorem Ends.of_keeps {m : Eval Unit} (hm : Keeps (Settled b n) m) {s : token_state} (hs : Settled b n s) :
    Ends n m s :=
  wp_imp (hm s hs) (fun _ _ h => h.fine) fun _ _ h => ⟨h.1, h.2.fine⟩

section Unroll

variable (bodies r args list span)

/-- What follows the preparation. -/
def after_pre (a : Char → ℕ) (more : List (Char → ℕ)) : Eval Unit := do
  catching (once span) (convert (rule_unroll bodies r args list (list.map fun l => a l.label)))
  unroll_all bodies r args list span more

end Unroll

variable {a : Char → ℕ} {more : List (Char → ℕ)}

/-- A token that has been settled goes on well. -/
theorem ends_after_pre {s : token_state} (hs : Settled true r.num_indices s) :
    Ends r.num_indices (after_pre bodies r args list span a more) s :=
  .of_keeps ((Keeps.catching (keeps_convert (keeps_rule_unroll _)) fun _ _ => keeps_once).bind
    fun _ => keeps_unroll_all more) hs

theorem ends_wrong_count {s : token_state} (hsilent : s.silent = false) (hargs : s.argument_error = false)
    (hindex : s.index_error = false) (hinitialized : s.initialized = true) (h : args.length = r.num_args)
    (hcount : list.length ≠ r.num_indices) : Ends r.num_indices (after_pre bodies r args list span a more) s := by
  rw [Ends, after_pre, wp_bind]
  exact wp_imp (wp_wrong_count hsilent hargs hindex h hcount _)
    (fun _ s' hs' => Ends.of_keeps (keeps_unroll_all more) ⟨hs'.2.trans hinitialized, .inl hs'.1⟩) fun _ _ => False.elim

/-- Before the first evaluation the rule is to prepare. -/
theorem ends_unroll_all {s : token_state} (hs : Fresh s) :
    Ends r.num_indices (unroll_all bodies r args list span (a :: more)) s ↔
      wp (catching (once span) (pre bodies r args list))
        (fun _ s' => Ends r.num_indices (after_pre bodies r args list span a more) { s' with initialized := true })
        (fun e s' => e ≠ .undefined ∧ Fine r.num_indices s') s := by
  rw [Ends, unroll_all, evaluate_unroll]
  simp only [bind_assoc, wp_bind, invoke_pre_handler, wp_get, hs.initialized, Bool.not_false, if_true, wp_modify, Ends,
    after_pre]

/-- What the rule throws when it prepares is reported. -/
theorem wp_pre_reported {s s' : token_state} {e : exception}
    (hpre : pre bodies r args list s = .error (.exception e) s') (he : caught e = true) (hsilent : s'.silent = false)
    (harg : s'.argument_error = false) (hindex : s'.index_error = false) :
    wp (catching (once span) (pre bodies r args list))
      (fun _ s' => Ends r.num_indices (after_pre bodies r args list span a more) { s' with initialized := true })
      (fun e s' => e ≠ .undefined ∧ Fine r.num_indices s') s := by
  obtain ⟨handler, hhandler, hreports⟩ := once_first span hsilent harg hindex he
  rw [wp, catching_some hpre hhandler]
  exact wp_imp hreports (fun _ s' h => ends_after_pre ⟨rfl, .inl h.1⟩) fun _ _ => False.elim

/-- **Unrolled evaluation**: an error is reported or the rule is called as it is to be, within the list, unless the
preparation goes wrong. -/
theorem unroll_all_iff {s : token_state} (hs : Fresh s) :
    Ends r.num_indices (unroll_all bodies r args list span (a :: more)) s ↔
      (args.length = r.num_args → prepared bodies r args list s.map ≠ .error .undefined ∧
        (s.errors ≠ [] ∨ list.length = r.num_indices ∨
          ∀ e, prepared bodies r args list s.map = .error (.exception e) → caught e = true)) := by
  rw [ends_unroll_all hs]
  by_cases hargs : args.length = r.num_args
  · have hpre := @pre_eq bodies r args list (validate_args_iff.mpr hargs) s
    simp only [hargs, forall_const]
    cases hx : prepared bodies r args list s.map with
    | ok text =>
      rw [hx] at hpre
      rw [wp_iff_of_ok (catching_ok hpre)]
      refine iff_of_true ?_ ⟨by simp, .inr (.inr fun e he => by cases he)⟩
      by_cases hfine : s.errors ≠ [] ∨ list.length = r.num_indices
      · exact ends_after_pre ⟨rfl, hfine.imp id fun hlength => ⟨by simp, by simp [hs.calls, hlength]⟩⟩
      · exact ends_wrong_count hs.silent hs.argument_error hs.index_error rfl hargs fun h => hfine (.inr h)
    | error e =>
      rw [hx] at hpre
      cases e with
      | undefined =>
        rw [wp_iff_of_error (catching_undefined hpre)]
        simp
      | exception e =>
        cases he : caught e with
        | true =>
          refine iff_of_true (wp_pre_reported hpre he hs.silent hs.argument_error hs.index_error)
            ⟨by simp, .inr (.inr ?_)⟩
          rintro e' he'
          cases he'
          exact he
        | false =>
          rw [wp_iff_of_error (catching_none hpre (once_eq_none he))]
          simp [Fine, hs.calls, he]
  · -- the wrong number of arguments is reported
    obtain ⟨what, hwhat⟩ : ∃ what, r.validate_args args = fail (.argument_mismatch what) := by
      rw [replacement_rule_index.validate_args, if_neg hargs]
      exact ⟨_, rfl⟩
    have hpre : pre bodies r args list s = .error (.exception (.argument_mismatch what)) s := by
      rw [pre, hwhat]
      rfl
    exact iff_of_true (wp_pre_reported hpre rfl hs.silent hs.argument_error hs.index_error) fun h => absurd h hargs

/-- The classes of the indices are those that the rule expects. -/
def Compatible (r : replacement_rule_index) (list : List index_literal) : Prop :=
  ∀ p ∈ (r.idx_classes.getD []).zip list, replacement_rule_index.compatible p.1 (identify_index p.2.label) = true

theorem validate_classes_eq (r : replacement_rule_index) (classes : List index_class) (list : List index_literal) :
    (∀ p ∈ classes.zip list, replacement_rule_index.compatible p.1 (identify_index p.2.label) = true) ∧
        r.validate_classes classes list = .ok () ∨
      (¬ ∀ p ∈ classes.zip list, replacement_rule_index.compatible p.1 (identify_index p.2.label) = true) ∧
        ∃ what span, r.validate_classes classes list = fail (.index_mismatch what span) := by
  fun_induction replacement_rule_index.validate_classes r classes list with
  | case1 expected classes l list h ih => simpa [h] using ih
  | case2 expected classes l list h => exact .inr ⟨by simp [h], _, _, rfl⟩
  | case3 classes list h =>
    refine .inl ⟨?_, rfl⟩
    match classes, list with
    | [], _ | _ :: _, [] => simp
    | expected :: classes, l :: list => exact (h expected classes l list rfl rfl).elim

/-- With as many indices as the rule declares, their classes are looked at. -/
theorem validate_indices_eq {r : replacement_rule_index} {list : List index_literal}
    (h : list.length = r.num_indices) : r.validate_indices list = r.validate_classes (r.idx_classes.getD []) list := by
  rw [replacement_rule_index.validate_indices, if_neg]
  rintro (hne | ⟨classes, hclasses, hne⟩)
  · exact hne h
  · cases r with
    | user_macro_rule name n status => cases hclasses
    | tensor t =>
      obtain rfl := Option.some.inj hclasses
      exact hne (h.trans t.length_idx_classes.symm)

/-- **Evaluation in a loop**: an error is reported or the rule is called as it is to be, unless the arguments or the
classes of the indices are wrong. -/
theorem roll_all_iff {s : token_state} (hs : Fresh s) (n : ℕ) :
    Ends r.num_indices (roll_all bodies r args list span (n + 1)) s ↔
      s.errors ≠ [] ∨ args.length = r.num_args ∧ (list.length = r.num_indices → Compatible r list) := by
  have hmore : ∀ {s'}, Settled false r.num_indices s' → Ends r.num_indices (roll_all bodies r args list span n) s' :=
    Ends.of_keeps (keeps_roll_all n)
  -- an exception that is not reported ends the evaluation
  have hescapes : ∀ {e}, rolled span e = none → rule_roll bodies r args list s = .error (.exception e) s →
      (Ends r.num_indices (roll_all bodies r args list span (n + 1)) s ↔ s.errors ≠ []) := by
    intro e he hrun
    have hconvert : convert (rule_roll bodies r args list) s = .error (.exception e) s := by
      simp only [convert, bind, EStateM.bind, hrun]
    rw [Ends, roll_all, wp_bind, evaluate_roll, wp_iff_of_error (catching_none hconvert he)]
    simp [Fine, hs.calls]
  by_cases herrors : s.errors ≠ []
  · exact iff_of_true (Ends.of_keeps (keeps_roll_all (n + 1)) ⟨hs.initialized, .inl herrors⟩) (.inl herrors)
  rw [or_iff_right herrors]
  by_cases hargs : args.length = r.num_args
  · simp only [hargs, true_and]
    by_cases hcount : list.length = r.num_indices
    · simp only [hcount, forall_const]
      obtain ⟨hcompatible, hvalid⟩ | ⟨hcompatible, what, idx_span, hvalid⟩ :=
        validate_classes_eq r (r.idx_classes.getD []) list
      · refine iff_of_true ?_ hcompatible
        have hcall : rule_roll bodies r args list s = call bodies r args list .roll [] s := by
          rw [rule_roll, validate_args_iff.mpr hargs, validate_indices_eq hcount, hvalid]
          rfl
        have hroll : wp (rule_roll bodies r args list) (fun _ => Settled false r.num_indices)
            (fun e s' => e ≠ .undefined ∧ Settled false r.num_indices s') s := by
          rw [wp, hcall]
          exact wp_call hcount .roll [] hs.initialized (.inr (by simp [hs.calls]))
        have hconvert : wp (convert (rule_roll bodies r args list)) (fun _ => Settled false r.num_indices)
            (fun e s' => e ≠ .undefined ∧ Settled false r.num_indices s') s := by
          rw [convert, wp_bind]
          exact wp_imp hroll (fun _ _ h => h.reported (List.prefix_refl _) rfl rfl) fun _ _ => id
        rw [Ends, roll_all, wp_bind]
        refine wp_imp (Keeps.wp_catching hconvert fun _ _ => keeps_rolled) (fun _ _ => hmore) ?_
        exact fun _ _ h => ⟨h.1, h.2.fine⟩
      · rw [hescapes (e := .index_mismatch what idx_span) rfl
          (by rw [rule_roll, validate_args_iff.mpr hargs, validate_indices_eq hcount, hvalid]; rfl)]
        exact iff_of_false herrors hcompatible
    · -- the wrong number of indices is reported
      obtain ⟨what, hwhat⟩ : ∃ what, r.validate_indices list = fail (.rule_apply_fail what) := by
        rw [replacement_rule_index.validate_indices, if_pos (.inl hcount)]
        exact ⟨_, rfl⟩
      have hconvert : convert (rule_roll bodies r args list) s = .error (.exception (.rule_apply_fail what)) s := by
        rw [convert, rule_roll, validate_args_iff.mpr hargs, hwhat]
        rfl
      refine iff_of_true ?_ fun h => absurd h hcount
      rw [Ends, roll_all, wp_bind, evaluate_roll, wp, catching_some hconvert rfl]
      exact wp_imp (wp_error_first hs.silent what)
        (fun _ s' h => hmore ⟨h.2.trans hs.initialized, .inl h.1⟩) fun _ _ => False.elim
  · obtain ⟨what, hwhat⟩ : ∃ what, r.validate_args args = fail (.argument_mismatch what) := by
      rw [replacement_rule_index.validate_args, if_neg hargs]
      exact ⟨_, rfl⟩
    rw [hescapes (e := .argument_mismatch what) rfl (by rw [rule_roll, hwhat]; rfl)]
    exact iff_of_false herrors fun h => hargs h.1

/-- What the rule checks when it prepares has been checked when it was asked for its unroll status. -/
def Accepts (list : List index_literal) : replacement_rule_index → Prop
  | .tensor t => t.Accepts list
  | .user_macro_rule _ _ _ => True

/-- The list is long enough for the rule to prepare. -/
def Preparable (list : List index_literal) : replacement_rule_index → Prop
  | .tensor t => t.Preparable list
  | .user_macro_rule _ _ _ => True

/-- With a wrong number of indices an error is reported: the rule has found another one, or it prepares whatever
their number is. -/
def Reports (bodies : Bodies) (args : List macro_argument) (list : List index_literal) : replacement_rule_index → Prop
  | .tensor t => t.Rejects list
  | .user_macro_rule name n status =>
    ∀ e, bodies ⟨.pre_hook, .user_macro_rule name n status, args, list, []⟩ = .error e → caught e = true

theorem preparable_of_count {t : tensor_rule} (h : list.length = t.num_indices) : t.Preparable list := by
  cases t with
  | replace_field | replace_coordinate =>
    rintro rfl
    cases h
  | _ => trivial

theorem prepared_iff (haccepts : Accepts list r) (map : Bool) (errors : Prop) :
    (prepared bodies r args list map ≠ .error .undefined ∧ (errors ∨ list.length = r.num_indices ∨
        ∀ e, prepared bodies r args list map = .error (.exception e) → caught e = true)) ↔
      Preparable list r ∧ (errors ∨ list.length = r.num_indices ∨ Reports bodies args list r) := by
  have hbodies : ∀ c, (bodies c).mapError Thrown.exception ≠ .error .undefined := fun c => by
    cases bodies c <;> simp [Except.mapError]
  by_cases hcount : list.length = r.num_indices
  · have hprepared : prepared bodies r args list map ≠ .error .undefined :=
      bind_ne_undefined (method_ne_undefined hcount map .pre_hook) (hbodies _)
    have hpreparable : Preparable list r := by
      cases r with
      | user_macro_rule name n status => trivial
      | tensor t => exact preparable_of_count hcount
    exact iff_of_true ⟨hprepared, .inr (.inl hcount)⟩ ⟨hpreparable, .inr (.inl hcount)⟩
  · rw [or_iff_right hcount, or_iff_right hcount]
    cases r with
    | user_macro_rule name n status =>
      have hprepared : prepared bodies (.user_macro_rule name n status) args list map =
          (bodies ⟨.pre_hook, .user_macro_rule name n status, args, list, []⟩).mapError Thrown.exception := rfl
      rw [hprepared]
      refine and_congr (iff_of_true (hbodies _) trivial) (or_congr_right (forall_congr' fun e => ?_))
      cases bodies ⟨.pre_hook, .user_macro_rule name n status, args, list, []⟩ <;> simp [Except.mapError]
    | tensor t =>
      have hcompute : t.compute list = fail .tensor_exception := by
        have hcount : list.length ≠ t.num_indices := hcount
        rw [tensor_rule.compute, t.tensor_indices_eq, if_pos hcount]
      have hprepared : prepared bodies (.tensor t) args list map = (do
          t.check list
          fail .tensor_exception) := by
        simp only [prepared, replacement_rule_index.method, tensor_rule.pre_hook, hcompute]
        cases t.check list <;> rfl
      rw [hprepared]
      have hchecked := t.checked list haccepts
      revert hchecked
      generalize t.check list = x
      intro hchecked
      cases hchecked with
      | ok hp hr => simp [Preparable, Reports, hp, hr, fail, caught]
      | rejected what hp hr => simp [Preparable, Reports, hp, hr, fail, caught]
      | undefined hp => simp [Preparable, hp]

end index_macro_token

/-! ### Lines -/

/-- How the macros on a line are evaluated. -/
inductive Mode where
  /-- For values of the indices. -/
  | unrolled (a : Char → ℕ) (more : List (Char → ℕ))
  /-- In loops, once and some more times. -/
  | rolled (more : ℕ)

def Mode.evaluate (bodies : Bodies) (r : replacement_rule_index) (args : List macro_argument)
    (list : List index_literal) (span : ℕ × ℕ) : Mode → Eval Unit
  | unrolled a more => index_macro_token.unroll_all bodies r args list span (a :: more)
  | rolled more => index_macro_token.roll_all bodies r args list span (more + 1)

/-- What comes of a macro on a line. -/
structure Outcome where
  /-- The errors that are reported. -/
  errors : List ErrorReport
  /-- The calls of its rule. -/
  calls : List Call
  /-- What is thrown and not caught. -/
  thrown : Option Failure

/-- No subscript is behind the list. An error is reported, or the rule is called with as many indices as it declares. -/
structure Outcome.Safe (n : ℕ) (o : Outcome) : Prop where
  defined : o.thrown ≠ some (.fault .undefined)
  counted : o.errors ≠ [] ∨ o.calls ≠ [] ∧ ∀ c ∈ o.calls, c.indices.length = n

/-- The rules for tensors that a model has. -/
def index_package (res : resources) : List tensor_rule :=
  [.replace_parameter, .replace_field, .replace_momenta, .replace_coordinate, .replace_SR_velocity, .replace_dV,
    .replace_ddV, .replace_dddV, .replace_A, .replace_Atilde, .replace_B, .replace_C, .replace_M] ++
  (if res.canonical then [] else
    [.replace_metric, .replace_connexion, .replace_Riemann_A2, .replace_Riemann_A3, .replace_Riemann_B3]) ++
  [.replace_U1, .replace_U2, .replace_U3, .replace_zeta1, .replace_zeta2, .replace_dN1, .replace_dN2]

/-- A model, the macros that have been defined, and what the rules do besides. -/
structure Setting where
  res : resources
  /-- Names, numbers of indices and unroll status of the macros that have been defined. -/
  users : List (List Char × ℕ × unroll_state)
  bodies : Bodies
  /-- Has a rule prepared a tensor before? -/
  map : Bool

namespace Setting

variable (S : Setting)

def package : List replacement_rule_index := (index_package S.res).map .tensor

def local_rules : List replacement_rule_index := S.users.map fun u => .user_macro_rule u.1 u.2.1 u.2.2

/-- The rule for a name. -/
def find (name : List Char) : Option replacement_rule_index :=
  (S.package ++ S.local_rules).find? (·.get_name = name)

/-- Tokenize what stands behind a prefix, and evaluate it if it is a macro with indices. -/
def expand (c : Config) (mode : Mode) (position : ℕ) (s : State) : Outcome :=
  match c.match_macro_or_index position s with
  | .error e s' => ⟨s'.errors.drop s.errors.length, [], some e⟩
  | .ok (tok, _) s' =>
    let new := s'.errors.drop s.errors.length
    match tok with
    | some ⟨.index_macro_token name list args, _, span⟩ =>
      match S.find name with
      | some r =>
        match mode.evaluate S.bodies r args list span { errors := new, map := S.map } with
        | .ok _ t => ⟨t.errors, t.calls, none⟩
        | .error e t => ⟨t.errors, t.calls, some (.fault e.fault)⟩
      | none => ⟨new, [], none⟩
    | _ => ⟨new, [], none⟩

/-- The macro that stands behind a prefix is that of a rule. -/
structure Named (c : Config) (s : State) (position : ℕ) (r : replacement_rule_index) : Prop where
  canonical : c.canonical = S.res.canonical
  index : c.index = S.package.map (·.token_rule S.res)
  local_rules : s.local_rules = S.local_rules.map (·.token_rule S.res)
  found : S.find r.get_name = some r
  not_pre : r.get_name ∉ c.pre.map (·.name)
  not_post : r.get_name ∉ c.post.map (·.name)
  text : ∃ a b rest, c.input.drop position = a :: b :: rest ∧ c.possible_match s.local_rules [a, b] = true ∧
    c.grow s.local_rules [a, b] rest = r.get_name

variable {S} {c : Config} {s : State} {position : ℕ} {r : replacement_rule_index}

/-- The tokenizer finds the rule. -/
theorem Named.make_token (h : S.Named c s position r) : ∃ rules : List index_rule,
    c.make_token r.get_name position s = c.make_index_macro_token r.get_name position rules s ∧
      rules.find? (·.name = r.get_name) = some (r.token_rule S.res) := by
  have hname : ∀ l : List replacement_rule_index, (l.map (·.token_rule S.res)).find? (·.name = r.get_name) =
      (l.find? (·.get_name = r.get_name)).map (·.token_rule S.res) := fun l => by
    rw [List.find?_map]
    rfl
  have hmake : c.make_token r.get_name position s =
      (if Config.check_for_match r.get_name (c.pre.map (·.name)) false then
        c.make_simple_macro_token r.get_name position c.pre .pre
      else if Config.check_for_match r.get_name (c.post.map (·.name)) false then
        c.make_simple_macro_token r.get_name position c.post .post
      else if Config.check_for_match r.get_name (c.index.map (·.name)) false then
        c.make_index_macro_token r.get_name position c.index
      else if Config.check_for_match r.get_name (s.local_rules.map (·.name)) false then
        c.make_index_macro_token r.get_name position s.local_rules
      else if Config.check_for_match r.get_name (c.simp_dir.map (·.name)) false then
        c.make_simple_directive r.get_name position c.simp_dir
      else if Config.check_for_match r.get_name (c.ind_dir.map (·.name)) false then
        c.make_index_directive r.get_name position c.ind_dir
      else c.make_index_literal position) s := rfl
  simp only [Config.check_for_match_false, h.not_pre, h.not_post, if_false] at hmake
  have hfound := h.found
  rw [find, List.find?_append, Option.or_eq_some_iff] at hfound
  obtain hpackage | ⟨hpackage, hlocal⟩ := hfound
  · have hrule : c.index.find? (·.name = r.get_name) = some (r.token_rule S.res) := by
      rw [h.index, hname, hpackage]
      rfl
    have hmem : r.get_name ∈ c.index.map (·.name) := List.mem_map.mpr ⟨_, List.mem_of_find?_eq_some hrule, rfl⟩
    rw [if_pos hmem] at hmake
    exact ⟨c.index, hmake, hrule⟩
  · have hnone : r.get_name ∉ c.index.map (·.name) := by
      rw [h.index, List.map_map, List.mem_map]
      rintro ⟨r', hr', hname'⟩
      exact List.find?_eq_none.mp hpackage r' hr' (by simpa using (show r'.get_name = r.get_name from hname'))
    have hrule : s.local_rules.find? (·.name = r.get_name) = some (r.token_rule S.res) := by
      rw [h.local_rules, hname, hlocal]
      rfl
    have hmem : r.get_name ∈ s.local_rules.map (·.name) := List.mem_map.mpr ⟨_, List.mem_of_find?_eq_some hrule, rfl⟩
    rw [if_neg hnone, if_pos hmem] at hmake
    exact ⟨s.local_rules, hmake, hrule⟩

/-- An upper case letter without a variance is an error, unless the model is canonical. -/
theorem spec_literal_reports {a : Char} {rest : List Char} (htext : c.input.drop position = a :: rest)
    (hupper : a.isUpper = true) (hcanonical : c.canonical = false) :
    Spec False (c.make_index_literal position) fun r new =>
      (∀ t, r.1 = some t → ∃ l, t.kind = .index_literal_token l) ∧ new ≠ [] := by
  have hmark : (a = '^' || a = '_') = false := by
    rw [Bool.or_eq_false_iff]
    constructor <;> rw [decide_eq_false_iff_not] <;> rintro rfl <;> simp at hupper
  have hskip : c.skip (fun a => a = '^' || a = '_') position = position :=
    Config.skip_of_drop (show c.input.drop position = [] ++ a :: rest from htext) (by simp) hmark
  have hlt : position < c.input.length := by
    rw [← not_le, ← List.drop_eq_nil_iff, htext]
    simp
  have hread : c.read position = pure a := by
    funext s
    exact Config.read_of_drop htext s
  have hclass : identify_index a ≠ .parameter := by
    rw [identify_index]
    split_ifs <;> simp
  rw [Config.make_index_literal, hskip, hread]
  simp only [ge_iff_le, not_le.mpr hlt, if_false, pure_bind]
  have hvariance : Config.written_variance (c.slice position position) = .none := by
    simp [Config.slice, Config.written_variance]
  have hproperties : Spec False
      (c.validate_index_properties ⟨a, Config.written_variance (c.slice position position), (position, position + 1)⟩)
      fun _ new => new ≠ [] := by
    rw [hvariance, Config.validate_index_properties, if_neg (by simp [hclass, hcanonical]), if_pos rfl]
    exact .error_bind _ _ _ (.pure (by simp))
  refine Spec.bind (P := fun _ new => new ≠ []) ?_ fun l new hnew => .pure ⟨?_, by simpa using hnew⟩
  · refine hproperties.bind fun l new hnew => ?_
    refine (Config.spec_validate_index_literal l).bind fun _ _ _ => ?_
    refine Spec.bind (P := fun _ _ => True) (.modify (fun _ => rfl) (fun _ => rfl) trivial) fun _ _ _ => .pure ?_
    simp [hnew]
  · rintro t ht
    cases ht
    exact ⟨l, rfl⟩

/-- The name is followed by a list of indices and by arguments. After they have been read the state is `s'`. -/
def Listed (c : Config) (s : State) (position : ℕ) (r : replacement_rule_index) (list : List index_literal)
    (args : List macro_argument) (s' : State) : Prop :=
  ∃ p s₁ p', c.get_index_list r.get_name (position + r.get_name.length) true s = .ok (list, p) s₁ ∧
    c.expected_arguments r.get_name r.num_args p s₁ = .ok (args, p') s'

variable {list : List index_literal} {args : List macro_argument} {s' : State}

/-- The token is built, unless the rule throws when it is asked for its unroll status. -/
theorem make_index_macro_token_eq {rules : List index_rule} {res : resources}
    (hrule : rules.find? (·.name = r.get_name) = some (r.token_rule res)) (hlisted : Listed c s position r list args s')
    (hfree : s.tokens.any (·.kind.is_directive) = false) :
    (∃ t, r.get_unroll res list = .error t ∧
      c.make_index_macro_token r.get_name position rules s = .error (.fault t.fault) s') ∨
    ∃ u, r.get_unroll res list = .ok u ∧ ∃ span next s₃, s₃.errors = s'.errors ∧
      c.make_index_macro_token r.get_name position rules s =
        .ok (some ⟨.index_macro_token r.get_name list args, r.get_name, span⟩, next) s₃ := by
  obtain ⟨p, s₁, p', hlist, hargs⟩ := hlisted
  have hvalid := Config.validate_replacement_rule_eq r.get_name position s
  rw [hfree, if_neg (by simp)] at hvalid
  have hargs : c.expected_arguments r.get_name (r.token_rule res).num_args p s₁ = .ok (args, p') s' := hargs
  have hstatus : (r.token_rule res).get_unroll list = (r.get_unroll res list).mapError Thrown.fault := rfl
  cases hunroll : r.get_unroll res list with
  | error t =>
    rw [hunroll, Except.mapError] at hstatus
    refine .inl ⟨t, rfl, ?_⟩
    simp only [Config.make_index_macro_token, bind, EStateM.bind, hvalid, if_true, hrule, hlist, hargs, hstatus]
    rfl
  | ok u =>
    rw [hunroll, Except.mapError] at hstatus
    simp only [Config.make_index_macro_token, bind, EStateM.bind, hvalid, if_true, hrule, hlist, hargs, hstatus]
    exact .inr ⟨u, rfl, _, _, _, (Config.unroll_policy_keeps _ _ _ _ _).2, rfl⟩

/-- Reading lists only reports errors. -/
theorem Listed.errors (h : Listed c s position r list args s') (hnamed : S.Named c s position r) :
    ∃ new, s'.errors = s.errors ++ new := by
  obtain ⟨p, s₁, p', hlist, hargs⟩ := h
  have hlength : position + r.get_name.length ≤ c.input.length := by
    obtain ⟨a, b, rest, htext, -, hgrow⟩ := hnamed.text
    obtain ⟨k, hk, hgrow'⟩ := c.grow_eq s.local_rules [a, b] rest
    have hdrop := congrArg List.length htext
    rw [← hgrow, hgrow']
    simp only [List.length_drop, List.length_cons, List.length_append, List.length_take, List.length_nil] at hdrop ⊢
    omega
  obtain ⟨q, s₂, hrun, -, new, herrors, -, hq⟩ := (Config.spec_get_index_list r.get_name true hlength).returns s
  rw [hlist] at hrun
  cases hrun
  obtain ⟨q', s₂, hrun, -, more, herrors', -, -⟩ := (Config.spec_expected_arguments r.get_name r.num_args hq).returns s₁
  rw [hargs] at hrun
  cases hrun
  exact ⟨new ++ more, by rw [herrors', herrors, List.append_assoc]⟩

/-- A rule that the model has, and that has not refused to be asked, accepts its indices. -/
theorem Named.accepts (h : S.Named c s position r) (hqueryable : r.Queryable S.res list)
    (haccepts : ¬ r.Refuses S.res list) : index_macro_token.Accepts list r := by
  have hmem := List.mem_of_find?_eq_some h.found
  cases r with
  | user_macro_rule name n status => trivial
  | tensor t =>
    have hpackage : t ∈ index_package S.res := by
      obtain hmem | hmem := List.mem_append.mp hmem
      · obtain ⟨t', ht', heq⟩ := List.mem_map.mp hmem
        cases heq
        exact ht'
      · obtain ⟨u, -, heq⟩ := List.mem_map.mp hmem
        cases heq
    have hcurvature : t = .replace_metric ∨ t = .replace_connexion → S.res.canonical = false := by
      rintro (rfl | rfl) <;> by_contra hne <;> rw [Bool.not_eq_false] at hne <;> simp [index_package, hne] at hpackage
    have hasked : t = .replace_metric ∨ t = .replace_connexion → t.Queryable list ∧ ¬ t.Refuses list := fun ht =>
      ⟨hqueryable.resolve_left (by simp [hcurvature ht]), fun hrefuses => haccepts ⟨hcurvature ht, hrefuses⟩⟩
    cases t with
    | replace_metric => exact hasked (.inl rfl)
    | replace_connexion => exact hasked (.inr rfl)
    | _ => trivial

/-- A rule that refuses to be asked is taken for an index literal, which is reported. -/
theorem Named.literal (h : S.Named c s position r) (hrefuses : r.Refuses S.res list) (s₁ : State) :
    ∃ a s₂ new, c.make_index_literal position s₁ = .ok a s₂ ∧ s₂.errors = s₁.errors ++ new ∧
      (∀ t, a.1 = some t → ∃ l, t.kind = .index_literal_token l) ∧ new ≠ [] := by
  obtain ⟨hcanonical, x, more, hname, hupper⟩ : S.res.canonical = false ∧
      ∃ x more, r.get_name = x :: more ∧ x.isUpper = true := by
    cases r with
    | user_macro_rule name n status => exact hrefuses.elim
    | tensor t =>
      obtain ⟨hcanonical, hrefuses⟩ := hrefuses
      cases t with
      | replace_metric => exact ⟨hcanonical, 'M', _, rfl, rfl⟩
      | replace_connexion => exact ⟨hcanonical, 'C', _, rfl, rfl⟩
      | _ => exact hrefuses.elim
  obtain ⟨a, b, rest, htext, -, hgrow⟩ := h.text
  obtain ⟨k, -, hgrow'⟩ := c.grow_eq s.local_rules [a, b] rest
  obtain rfl : a = x := (List.cons.inj (hgrow'.symm.trans (hgrow.trans hname))).1
  obtain ⟨a', s₂, hrun, -, new, herrors, htoken, hnew⟩ :=
    (spec_literal_reports htext hupper (h.canonical.trans hcanonical)).returns s₁
  exact ⟨a', s₂, new, hrun, herrors, htoken, hnew⟩

end Setting

/-- The evaluation of a macro, with as many indices and arguments as it is given, is counted. -/
def Mode.Counted (bodies : Bodies) (r : replacement_rule_index) (args : List macro_argument)
    (list : List index_literal) (reported : Prop) : Mode → Prop
  | unrolled _ _ => args.length = r.num_args → index_macro_token.Preparable list r ∧
      (reported ∨ list.length = r.num_indices ∨ index_macro_token.Reports bodies args list r)
  | rolled _ =>
    reported ∨ args.length = r.num_args ∧ (list.length = r.num_indices → index_macro_token.Compatible r list)

theorem Mode.ends_iff {bodies : Bodies} {r : replacement_rule_index} {args : List macro_argument}
    {list : List index_literal} (haccepts : index_macro_token.Accepts list r) (mode : Mode) (span : ℕ × ℕ)
    (errors : List ErrorReport) (map : Bool) :
    index_macro_token.Ends r.num_indices (mode.evaluate bodies r args list span) { errors, map } ↔
      mode.Counted bodies r args list (errors ≠ []) := by
  have hfresh : index_macro_token.Fresh { errors, map } := ⟨rfl, rfl, rfl, rfl, rfl⟩
  cases mode with
  | unrolled a more =>
    rw [evaluate, index_macro_token.unroll_all_iff hfresh, Counted]
    exact forall_congr' fun _ => index_macro_token.prepared_iff haccepts map _
  | rolled more => exact index_macro_token.roll_all_iff hfresh more

namespace Setting

variable {S : Setting} {c : Config} {s s' : State} {position : ℕ} {r : replacement_rule_index}
  {list : List index_literal} {args : List macro_argument}

/-- **Numbers of indices**: subscripts stay within the list, and an error is reported or the rule is called with as
many indices as it declares, if and only if the list is long enough for the rule to be asked, and the evaluation is
counted. -/
theorem safe_iff (h : S.Named c s position r) (hlisted : Listed c s position r list args s') (mode : Mode) :
    (S.expand c mode position s).Safe r.num_indices ↔
      s.tokens.any (·.kind.is_directive) = true ∨ r.Queryable S.res list ∧
        (r.Refuses S.res list ∨ mode.Counted S.bodies r args list (s'.errors ≠ s.errors)) := by
  obtain ⟨a, b, rest, htext, hpossible, hgrow⟩ := h.text
  obtain ⟨rules, hmake, hrule⟩ := h.make_token
  have hmatch := Config.match_macro_or_index_eq htext hpossible
  rw [hgrow, tryCatchWhen, hmake] at hmatch
  cases hdirective : s.tokens.any (·.kind.is_directive) with
  | true =>
    -- the name is reported, and there is no token
    have hvalid := Config.validate_replacement_rule_eq r.get_name position s
    rw [hdirective, if_pos rfl] at hvalid
    have hrun : c.make_index_macro_token r.get_name position rules s = .ok (none, position + r.get_name.length)
        { s with errors := s.errors ++ [⟨ERROR_RULE_AFTER_DIRECTIVE, (position, position + r.get_name.length)⟩] } := by
      simp only [Config.make_index_macro_token, bind, EStateM.bind, hvalid]
      rfl
    rw [hrun] at hmatch
    refine iff_of_true ?_ (.inl rfl)
    rw [expand, hmatch]
    exact ⟨by simp, .inl (by simp)⟩
  | false =>
    obtain ⟨new, herrors⟩ := hlisted.errors h
    have hreported : s'.errors ≠ s.errors ↔ new ≠ [] := by simp [herrors]
    rw [or_iff_right (by simp), hreported]
    obtain ⟨t, hasked, hrun⟩ | ⟨u, hasked, span, next, s₃, herrors₃, hrun⟩ :=
      make_index_macro_token_eq hrule hlisted hdirective
    · have hstatus := asked S.res r list
      rw [hasked] at hstatus
      cases hstatus with
      | refused what hr hq =>
        obtain ⟨literal, s₂, more, hliteral, hmore, htoken, hne⟩ := h.literal hr s'
        rw [hrun] at hmatch
        simp only [Thrown.fault, Config.is_runtime_error, if_true, hliteral] at hmatch
        refine iff_of_true ?_ ⟨hq, .inl hr⟩
        have hsome : s₂.errors.drop s.errors.length ≠ [] := by simp [hmore, herrors, hne]
        obtain ⟨tok, next⟩ := literal
        rw [expand, hmatch]
        cases tok with
        | none => exact ⟨by simp, .inl hsome⟩
        | some tok =>
          obtain ⟨kind, text, span⟩ := tok
          obtain ⟨l, hkind⟩ := htoken _ rfl
          obtain rfl : kind = .index_literal_token l := hkind
          exact ⟨by simp, .inl hsome⟩
      | undefined hq =>
        rw [hrun] at hmatch
        simp only [Thrown.fault, Config.is_runtime_error] at hmatch
        refine iff_of_false (fun hsafe => ?_) fun h => hq h.1
        rw [expand, hmatch] at hsafe
        exact hsafe.defined rfl
    · have hstatus := asked S.res r list
      rw [hasked] at hstatus
      cases hstatus with
      | ok _ hq hr =>
        rw [and_iff_right hq, or_iff_right hr, ← Mode.ends_iff (h.accepts hq hr) mode span new S.map]
        rw [hrun] at hmatch
        simp only at hmatch
        have hnew : s₃.errors.drop s.errors.length = new := by simp [herrors₃, herrors]
        rw [expand, hmatch]
        simp only [h.found, hnew]
        rw [index_macro_token.Ends, wp]
        cases mode.evaluate S.bodies r args list span { errors := new, map := S.map } with
        | ok a t => exact ⟨fun hsafe => hsafe.counted, fun hfine => ⟨by simp, hfine⟩⟩
        | error e t =>
          refine ⟨fun hsafe => ⟨?_, hsafe.counted⟩, fun hends => ⟨?_, hends.2⟩⟩
          · rintro rfl
            exact hsafe.defined rfl
          · intro hundefined
            refine hends.1 ?_
            cases e with
            | undefined => rfl
            | exception e => cases e <;> cases hundefined

end Setting

/-- A canonical model in which nothing can be rolled up. -/
def unrolled_resources : resources where
  canonical := true
  can_roll_parameters := false
  can_roll_coordinates := false
  can_roll_dV _ := false
  can_roll_ddV _ := false
  can_roll_dddV _ := false
  can_roll_metric := false
  can_roll_metric_inverse := false
  can_roll_connexion := false
  can_roll_Riemann_A2 _ := false
  can_roll_Riemann_A3 _ := false
  can_roll_Riemann_B3 _ := false

/-- Its rules return no text. -/
def textless : Setting where
  res := unrolled_resources
  users := []
  bodies _ := .ok []
  map := false

/-- A line for it. -/
def textless_line (input : List Char) : Config where
  input := input
  pfx := ['$']
  index := textless.package.map (·.token_rule textless.res)

/-- The name `FIELD`, and then its indices. -/
def field_line (indices : List Char) : Config := textless_line (['F', 'I', 'E', 'L', 'D'] ++ indices)

theorem field_named {indices : List Char} (h : (field_line indices).grow [] ['F', 'I'] (['E', 'L', 'D'] ++ indices) =
    ['F', 'I', 'E', 'L', 'D']) :
    textless.Named (field_line indices) { local_rules := [] } 0 (.tensor .replace_field) where
  canonical := rfl
  index := rfl
  local_rules := rfl
  found := rfl
  not_pre := List.not_mem_nil
  not_post := List.not_mem_nil
  text := ⟨'F', 'I', ['E', 'L', 'D'] ++ indices, rfl, rfl, h⟩

/-- One index is as many as `$FIELD` declares. -/
theorem field_safe : (textless.expand (field_line ['[', 'a', ']']) (.unrolled (fun _ => 0) []) 0
    { local_rules := [] }).Safe 1 :=
  (Setting.safe_iff (field_named rfl) ⟨_, _, _, rfl, rfl⟩ _).mpr
    (.inr ⟨.inl rfl, .inr fun _ => ⟨List.cons_ne_nil _ _, .inr (.inl rfl)⟩⟩)

/-- Without an index `$FIELD` subscripts an empty list. -/
theorem empty_list_undefined : ¬ ∀ (S : Setting) (c : Config) (s s' : State) (position : ℕ) (r : replacement_rule_index)
    (list : List index_literal) (args : List macro_argument) (mode : Mode), S.Named c s position r →
      Setting.Listed c s position r list args s' → (S.expand c mode position s).Safe r.num_indices := by
  intro h
  have hsafe := h textless (field_line ['[', ']']) { local_rules := [] } _ 0 (.tensor .replace_field) [] []
    (.unrolled (fun _ => 0) []) (field_named rfl) ⟨_, _, _, rfl, rfl⟩
  exact hsafe.defined rfl

end CppTransport.Translator.ReplacementRules
