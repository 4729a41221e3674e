import CppTransport.Translator.SumAssignment

/-!
# The two generators of assignments

For a line `target $= + term` or `target $+= + term` of a template there are two ways to write the
assignments: unrolled, with one statement for each target, or as nested `for` loops. They share next to no code.
Unrolled lines put all terms behind one another, or a single term behind the target; the loops clear
the target first if there is more than one term, add to it term by term, and set it if there is just
one.

## What is proved

`agree_iff`: run from any memory, both do what the line means, target by target in the order of the
indices, just if

* there are no targets, or
* the line adds to its targets, there are no terms, and the line is a statement or the number of
  targets is taken for zero, or
* the line is a statement with a term, and there are fewer than 2³² targets and terms.

Where a line sets its targets and there are no terms, neither of the two sets them to zero
(`no_parameters_not_agree`).
-/

namespace CppTransport.Translator.SumAssignment

open Library Tokenizer

/-! ### What a line means -/

section Result

variable {p : Payload} {t : Template} {V Loc : Type} [AddMonoid V] [DecidableEq Loc] (M : Meaning p t V Loc)

/-- What the terms are added to: what is in the target, or zero. -/
def Meaning.start (s : Store V Loc) (l : Assignment) : V :=
  match (split t.line).type with
  | .sum_equal => (s (M.target l)).getD 0
  | _ => 0

/-- The memory after one target. -/
def Meaning.put (s : Store V Loc) (l : Assignment) : Store V Loc :=
  Function.update s (M.target l) (some (M.start s l + ((assignments (rhs p t)).map fun r => M.value (l ++ r) s).sum))

/-- One target after the other. The terms are evaluated in the memory that has come about, so this also says in which
order targets are assigned. -/
def Meaning.result (s : Store V Loc) : Store V Loc := (assignments (lhs p t)).foldl M.put s

/-- Terms can be added to the targets: where a line adds, there is something in them. -/
def Meaning.Defined (s : Store V Loc) : Prop :=
  (split t.line).type = .sum_equal → ∀ l ∈ assignments (lhs p t), (s (M.target l)).isSome

end Result

/-- Both generators write what the line means. -/
def Agree (p : Payload) (t : Template) : Prop :=
  ∀ (V Loc : Type) [AddMonoid V] [DecidableEq Loc] (M : Meaning p t V Loc) (s : Store V Loc), M.Defined s →
    run M (unroll_index_assignment p t).flatten s = some (M.result s) ∧
      run M (forloop_index_assignment p t).flatten s = some (M.result s)

/-- The line ends with a semicolon, and with no comma before it. -/
def IsStatement (t : Template) : Prop := (split t.line).semicolon = true ∧ (split t.line).comma = false

/-- When the generators agree. -/
inductive Agreeable (p : Payload) (t : Template) : Prop where
  /-- There are no targets. -/
  | no_targets : assignments (lhs p t) = [] → Agreeable p t
  /-- Nothing is added to the targets. -/
  | no_terms : (split t.line).type = .sum_equal → assignments (rhs p t) = [] → size (lhs p t) = 0 ∨ IsStatement t →
      Agreeable p t
  /-- The line is a statement with a term, and not too long. -/
  | statement : IsStatement t → assignments (rhs p t) ≠ [] → volume (lhs p t) < 2 ^ 32 → volume (rhs p t) < 2 ^ 32 →
      Agreeable p t

/-! ### Both generators -/

section Runs

variable {p : Payload} {t : Template} {V Loc : Type} [AddMonoid V] [DecidableEq Loc] {M : Meaning p t V Loc}
  {s : Store V Loc} {l : Assignment}

theorem Meaning.Defined.put (h : M.Defined s) (l : Assignment) : M.Defined (M.put s l) := by
  intro adds l' hl'
  rw [Meaning.put, Function.update_apply]
  split_ifs
  · rfl
  · exact h adds l' hl'

/-- Code that does what the line means for each target does it for all of them. -/
theorem foldlM_eq_foldl_put {c : Store V Loc → Assignment → Option (Store V Loc)} {ls : List Assignment}
    (h : ∀ l ∈ ls, ∀ s, M.Defined s → c s l = some (M.put s l)) (hs : M.Defined s) :
    ls.foldlM c s = some (ls.foldl M.put s) := by
  induction ls generalizing s with
  | nil => rfl
  | cons l ls ih =>
    rw [List.foldlM_cons, h l List.mem_cons_self s hs, Option.bind_eq_bind, Option.bind_some,
      ih (fun l' hl' => h l' (List.mem_cons_of_mem l hl')) (hs.put l), List.foldl_cons]

theorem put_of_sum (hsum : (split t.line).type = .sum) : M.put s l =
    Function.update s (M.target l) (some ((assignments (rhs p t)).map fun r => M.value (l ++ r) s).sum) := by
  rw [Meaning.put, Meaning.start, hsum, zero_add]

theorem put_of_sum_equal (hadd : (split t.line).type = .sum_equal) {v : V} (hv : s (M.target l) = some v) : M.put s l =
    Function.update s (M.target l) (some (v + ((assignments (rhs p t)).map fun r => M.value (l ++ r) s).sum)) := by
  rw [Meaning.put, Meaning.start, hadd, hv, Option.getD_some]

/-- Nothing is put where there are no terms. -/
theorem put_of_no_terms (hadd : (split t.line).type = .sum_equal) (hterms : assignments (rhs p t) = [])
    (hs : M.Defined s) (hl : l ∈ assignments (lhs p t)) : M.put s l = s := by
  obtain ⟨v, hv⟩ := Option.isSome_iff_exists.mp (hs hadd l hl)
  rw [put_of_sum_equal hadd hv, hterms, List.map_nil, List.sum_nil, add_zero, ← hv, Function.update_eq_self]

theorem assign_eq_put {op : Operator} (hop : unrolled_operator (split t.line).type = [op.piece]) (hs : M.Defined s)
    (hl : l ∈ assignments (lhs p t)) :
    M.assign (some l) op ((assignments (rhs p t)).map fun r => .right (some (l ++ r))) [] s = some (M.put s l) := by
  cases htype : (split t.line).type with
  | none => simp [htype, unrolled_operator] at hop
  | sum =>
    obtain rfl : op = .set := by
      cases op with
      | set => rfl
      | add => simp [htype, unrolled_operator, Operator.piece] at hop
    simp only [Meaning.assign, map_operand, Meaning.place, put_of_sum htype]
  | sum_equal =>
    obtain rfl : op = .add := by
      cases op with
      | set => simp [htype, unrolled_operator, Operator.piece] at hop
      | add => rfl
    obtain ⟨v, hv⟩ := Option.isSome_iff_exists.mp (hs htype l hl)
    simp only [Meaning.assign, map_operand, Meaning.place, hv, put_of_sum_equal htype hv]

theorem size_of_lt {indices : List (Char × ℕ)} (h : volume indices < 2 ^ 32) : size indices = volume indices := by
  rw [size_eq, Nat.mod_eq_of_lt h]

theorem size_ne_zero {indices : List (Char × ℕ)} (h : volume indices < 2 ^ 32) (hsome : assignments indices ≠ []) :
    size indices ≠ 0 := by
  rwa [size_of_lt h, ← length_assignments, ne_eq, List.length_eq_zero_iff]

/-- **The unrolled lines** of a statement with a term. -/
theorem run_unrolled_eq (htarget : 0 < t.left_size) (hsplit : (split t.line).type ≠ .none) (hstatement : IsStatement t)
    (signed : ∀ l ∈ assignments (lhs p t), ∀ r ∈ assignments (rhs p t), t.signed (l ++ r) = true)
    (htargets : assignments (lhs p t) ≠ []) (hterms : assignments (rhs p t) ≠ []) (hleft : volume (lhs p t) < 2 ^ 32)
    (hright : volume (rhs p t) < 2 ^ 32) (hs : M.Defined s) :
    run M (unroll_index_assignment p t).flatten s = some (M.result s) := by
  obtain ⟨op, hop⟩ := exists_unrolled_operator hsplit
  rw [run_unrolled_lines htarget hop (trailing_eq hstatement.1 hstatement.2) (size_ne_zero hleft htargets)
    (size_ne_zero hright hterms), iterate_eq hleft, iterate_eq hright]
  · exact foldlM_eq_foldl_put (fun l hl s hs => assign_eq_put hop hs hl) hs
  · rw [iterate_eq hleft, iterate_eq hright]
    exact fun l hl r hr => signed l hl r (List.mem_of_mem_tail hr)

/-- The lines with loops, where a line adds to its targets. -/
theorem compiles_rolled_add (htarget : 0 < t.left_size) (hadd : (split t.line).type = .sum_equal)
    (hstatement : IsStatement t) : Compiles M (plant_LHS_forloop p t).flatten
      (nested (nested (M.assign none .add [.right none]) (rhs p t)) (lhs p t)) := by
  refine Compiles.plant_loops ?_ _
  have hop : rolled_operator (size (rhs p t) = 1) (split t.line).type = [Operator.add.piece] := by rw [hadd]; rfl
  have hloops := compiles_rhs (M := M) (p := p) htarget hop (trailing_eq hstatement.1 hstatement.2)
  simpa [hadd] using hloops

/-- **The loops** of a statement, where there is a term or nothing is to be set. -/
theorem run_rolled_eq (htarget : 0 < t.left_size) (hsplit : (split t.line).type ≠ .none) (hstatement : IsStatement t)
    (hterms : (split t.line).type = .sum → assignments (rhs p t) ≠ [] ∧ volume (rhs p t) < 2 ^ 32) (hs : M.Defined s) :
    run M (plant_LHS_forloop p t).flatten s = some (M.result s) := by
  have htrailing := trailing_eq hstatement.1 hstatement.2
  cases htype : (split t.line).type with
  | none => exact absurd htype hsplit
  | sum =>
    obtain ⟨hsome, hlt⟩ := hterms htype
    have hsize := size_of_lt hlt
    have hne := size_ne_zero hlt hsome
    rw [(compiles_rolled htarget htype htrailing).run, nested_eq]
    refine foldlM_eq_foldl_put (fun l hl s hs => ?_) hs
    rw [put_of_sum htype]
    exact rolled_body_eq hne (fun hone => hsize ▸ hone) hl s
  | sum_equal =>
    rw [(compiles_rolled_add htarget htype hstatement).run, nested_eq]
    refine foldlM_eq_foldl_put (fun l hl s hs => ?_) hs
    obtain ⟨v, hv⟩ := Option.isSome_iff_exists.mp (hs htype l hl)
    rw [put_of_sum_equal htype hv, List.nil_append, nested_eq]
    exact foldlM_accumulate hl (fun _ hr => hr) hv

/-- What both write where the number of targets is taken for zero. -/
theorem run_skipped (h : size (lhs p t) = 0) (s : Store V Loc) :
    run M (unroll_index_assignment p t).flatten s = some s ∧ run M (forloop_index_assignment p t).flatten s = some s := by
  rw [unroll_index_assignment, forloop_index_assignment, if_pos h, if_pos h]
  exact ⟨(Compiles.comment SKIPPED).run s, (Compiles.comment SKIPPED).run s⟩

/-- Unrolled, there is nothing to be read where there are no terms. -/
theorem run_unrolled_of_no_terms (htargets : size (lhs p t) ≠ 0) (hterms : size (rhs p t) = 0) (s : Store V Loc) :
    run M (unroll_index_assignment p t).flatten s = some s := by
  have hnil : (unroll_index_assignment p t).flatten = [] := by
    rw [flatten_unroll htargets]
    simp [unroll_one_eq_nil hterms]
  rw [hnil]
  exact Compiles.nil.run s

/-- Without a target or without a term no line is unrolled that does anything. -/
theorem run_unrolled_unchanged (h : size (lhs p t) = 0 ∨ size (rhs p t) = 0) (s : Store V Loc) :
    run M (unroll_index_assignment p t).flatten s = some s := by
  by_cases htargets : size (lhs p t) = 0
  · exact (run_skipped htargets s).1
  · exact run_unrolled_of_no_terms htargets (h.resolve_left htargets) s

theorem size_eq_zero {indices : List (Char × ℕ)} (h : assignments indices = []) : size indices = 0 := by
  rw [size_eq, ← length_assignments, h]
  rfl

/-- Where there are no terms to be added, nothing is done. -/
theorem result_of_no_terms (hadd : (split t.line).type = .sum_equal) (hterms : assignments (rhs p t) = [])
    (hs : M.Defined s) : M.result s = s := by
  have same : (assignments (lhs p t)).foldlM (fun s (_ : Assignment) => some s) s = some (M.result s) :=
    foldlM_eq_foldl_put (fun l hl s hs => by rw [put_of_no_terms hadd hterms hs hl]) hs
  have stays : (assignments (lhs p t)).foldlM (fun s (_ : Assignment) => some s) s = some s := by
    induction assignments (lhs p t) with
    | nil => rfl
    | cons l ls ih => exact ih
  rw [stays] at same
  exact (Option.some.inj same).symm

/-- **The condition is enough**. -/
theorem Agreeable.agree (htarget : 0 < t.left_size) (hsplit : (split t.line).type ≠ .none)
    (signed : ∀ l ∈ assignments (lhs p t), ∀ r ∈ assignments (rhs p t), t.signed (l ++ r) = true) (h : Agreeable p t) :
    Agree p t := by
  intro V Loc _ _ M s hs
  cases h with
  | no_targets none =>
    have same : M.result s = s := by rw [Meaning.result, none]; rfl
    rw [same]
    exact run_skipped (size_eq_zero none) s
  | no_terms hadd none written =>
    rw [result_of_no_terms hadd none hs]
    by_cases hsize : size (lhs p t) = 0
    · exact run_skipped hsize s
    · have hstatement := written.resolve_left hsize
      refine ⟨run_unrolled_of_no_terms hsize (size_eq_zero none) s, ?_⟩
      rw [forloop_index_assignment, if_neg hsize,
        run_rolled_eq htarget hsplit hstatement (fun hsum => by simp [hsum] at hadd) hs, result_of_no_terms hadd none hs]
  | statement hstatement hterms hleft hright =>
    by_cases none : assignments (lhs p t) = []
    · have same : M.result s = s := by rw [Meaning.result, none]; rfl
      rw [same]
      exact run_skipped (size_eq_zero none) s
    · refine ⟨run_unrolled_eq htarget hsplit hstatement signed none hterms hleft hright hs, ?_⟩
      rw [forloop_index_assignment, if_neg (size_ne_zero hleft none)]
      exact run_rolled_eq htarget hsplit hstatement (fun _ => ⟨hterms, hright⟩) hs

end Runs

/-! ### Lines for which they do not agree -/

section Ones

variable {p : Payload} {t : Template} {s s' : Store ℕ Assignment}

/-- A memory in which terms can be added to targets, and otherwise nothing has been assigned. -/
def blank (type : split_type) : Store ℕ Assignment :=
  match type with
  | .sum_equal => fun _ => some 0
  | _ => fresh

theorem defined_blank : (ones p t).Defined (blank (split t.line).type) := by
  intro hadd l _
  rw [hadd]
  rfl

theorem blank_ne {n : ℕ} (type : split_type) (hn : n ≠ 0) (l : Assignment) : blank type l ≠ some n := by
  cases type with
  | sum_equal => exact fun h => hn (Option.some.inj h).symm
  | none | sum => exact fun h => nomatch h

theorem foldl_put_ones {ls : List Assignment} (hnodup : ls.Nodup) (hs : ∀ l ∈ ls, (ones p t).start s l = 0)
    (x : Assignment) : ls.foldl (ones p t).put s x = if x ∈ ls then some (volume (rhs p t)) else s x := by
  have hsum : ((assignments (rhs p t)).map fun _ => 1).sum = volume (rhs p t) := by
    simp [length_assignments]
  induction ls generalizing s with
  | nil => simp
  | cons l ls ih =>
    obtain ⟨hnot, hrest⟩ := List.nodup_cons.mp hnodup
    have hput : (ones p t).put s l = Function.update s l (some (volume (rhs p t))) := by
      rw [Meaning.put, hs l List.mem_cons_self, zero_add, ← hsum]
      rfl
    have hstart : ∀ l' ∈ ls, (ones p t).start ((ones p t).put s l) l' = 0 := by
      intro l' hl'
      have hne : l' ≠ l := fun h => hnot (h ▸ hl')
      rw [← hs l' (List.mem_cons_of_mem l hl'), hput]
      simp only [Meaning.start, ones, id_eq, Function.update_of_ne hne]
    rw [List.foldl_cons, ih hrest hstart, hput]
    by_cases hx : x = l
    · subst hx
      simp [hnot]
    · simp [hx]

/-- Each target gets the number of the terms. -/
theorem ones_result {l : Assignment} (hl : l ∈ assignments (lhs p t)) :
    (ones p t).result (blank (split t.line).type) l = some (volume (rhs p t)) := by
  have hstart : ∀ l ∈ assignments (lhs p t), (ones p t).start (blank (split t.line).type) l = 0 := by
    intro l _
    rw [Meaning.start]
    cases (split t.line).type <;> rfl
  rw [Meaning.result, foldl_put_ones (nodup_assignments _) hstart, if_pos hl]

/-- A statement for each target adds up the terms that it has. -/
theorem foldlM_assign_ones {op : Operator} {ls rs : List Assignment} (hnodup : ls.Nodup)
    (hs : op = .add → ∀ l ∈ ls, s l = some 0)
    (h : ls.foldlM (fun s l => (ones p t).assign (some l) op (rs.map fun r => .right (some (l ++ r))) [] s) s = some s')
    (x : Assignment) : s' x = if x ∈ ls then some rs.length else s x := by
  have hsum : (rs.map fun _ => 1).sum = rs.length := by simp
  induction ls generalizing s with
  | nil =>
    cases h
    simp
  | cons l ls ih =>
    obtain ⟨hnot, hrest⟩ := List.nodup_cons.mp hnodup
    have hassign : (ones p t).assign (some l) op (rs.map fun r => .right (some (l ++ r))) [] s =
        some (Function.update s l (some rs.length)) := by
      cases op with
      | set =>
        simp only [Meaning.assign, map_operand]
        simp [ones, Meaning.place]
      | add =>
        simp only [Meaning.assign, map_operand]
        simp [ones, Meaning.place, hs rfl l List.mem_cons_self]
    have hothers : op = .add → ∀ l' ∈ ls, Function.update s l (some rs.length) l' = some 0 := by
      intro hadd l' hl'
      have hne : l' ≠ l := fun h => hnot (h ▸ hl')
      rw [Function.update_of_ne hne]
      exact hs hadd l' (List.mem_cons_of_mem l hl')
    rw [List.foldlM_cons, hassign] at h
    rw [ih hrest hothers h]
    by_cases hx : x = l
    · subst hx
      simp [hnot]
    · simp [hx]

theorem mem_of_mem_iterate {indices : List (Char × ℕ)} {a : Assignment} (h : a ∈ iterate indices) :
    a ∈ assignments indices := by
  rw [iterate_eq_take] at h
  exact List.mem_of_mem_take h

theorem size_lt (indices : List (Char × ℕ)) : size indices < 2 ^ 32 := by
  rw [size_eq]
  exact Nat.mod_lt _ (by decide)

/-- If each target gets the number of the terms, neither targets nor terms are too many for their count. -/
theorem volumes_lt {op : Operator} {l₀ : Assignment} (hl₀ : l₀ ∈ assignments (lhs p t))
    (hs : op = .add → ∀ l ∈ iterate (lhs p t), s l = some 0) (hfresh : ∀ l, s l ≠ some (volume (rhs p t)))
    (h : (iterate (lhs p t)).foldlM (fun s l => (ones p t).assign (some l) op
      ((iterate (rhs p t)).map fun r => .right (some (l ++ r))) [] s) s = some s')
    (hresult : ∀ l ∈ assignments (lhs p t), s' l = some (volume (rhs p t))) :
    volume (lhs p t) < 2 ^ 32 ∧ volume (rhs p t) < 2 ^ 32 := by
  have nodup : (iterate (lhs p t)).Nodup := by
    rw [iterate_eq_take]
    exact (nodup_assignments _).sublist (List.take_sublist ..)
  have value : ∀ l ∈ assignments (lhs p t),
      (if l ∈ iterate (lhs p t) then some (size (rhs p t)) else s l) = some (volume (rhs p t)) := fun l hl => by
    rw [← hresult l hl, foldlM_assign_ones nodup hs h, length_iterate]
  have reached : assignments (lhs p t) ⊆ iterate (lhs p t) := fun l hl => by
    by_contra hnot
    have kept := value l hl
    rw [if_neg hnot] at kept
    exact hfresh l kept
  constructor
  · have hle := (List.subperm_of_subset (nodup_assignments (lhs p t)) reached).length_le
    rw [length_assignments, length_iterate] at hle
    exact hle.trans_lt (size_lt _)
  · have hsize := value l₀ hl₀
    rw [if_pos (reached hl₀)] at hsize
    exact Option.some.inj hsize ▸ size_lt _

/-- **The condition is necessary**. -/
theorem Agree.agreeable (htarget : 0 < t.left_size) (hsplit : (split t.line).type ≠ .none)
    (signed : ∀ l ∈ assignments (lhs p t), ∀ r ∈ assignments (rhs p t), t.signed (l ++ r) = true) (h : Agree p t) :
    Agreeable p t := by
  by_cases none : assignments (lhs p t) = []
  · exact .no_targets none
  obtain ⟨l₀, hl₀⟩ := List.exists_mem_of_ne_nil _ none
  obtain ⟨unrolled, rolled⟩ := h ℕ Assignment (ones p t) _ defined_blank
  have unchanged (hsizes : size (lhs p t) = 0 ∨ size (rhs p t) = 0) :
      (ones p t).result (blank (split t.line).type) = blank (split t.line).type :=
    Option.some.inj (unrolled.symm.trans (run_unrolled_unchanged hsizes _))
  have value := ones_result hl₀
  by_cases hterms : assignments (rhs p t) = []
  · -- nothing is assigned, which is right only if nothing is to be set
    rw [unchanged (.inr (size_eq_zero hterms))] at value
    cases htype : (split t.line).type with
    | none => exact absurd htype hsplit
    | sum =>
      rw [htype] at value
      cases value
    | sum_equal =>
      refine .no_terms htype hterms (or_iff_not_imp_left.mpr fun hsize => ?_)
      rw [forloop_index_assignment, if_neg hsize] at rolled
      exact statement_of_run (not_open_rolled htarget hsplit) rolled
  · have positive : volume (rhs p t) ≠ 0 := by
      rwa [← length_assignments, ne_eq, List.length_eq_zero_iff]
    have hfresh := blank_ne (split t.line).type positive
    obtain ⟨htargets, hsome⟩ : size (lhs p t) ≠ 0 ∧ size (rhs p t) ≠ 0 :=
      not_or.mp fun hsizes => hfresh l₀ (unchanged hsizes ▸ value)
    have hstatement := statement_of_run (not_open_unrolled htarget hsplit htargets hsome) unrolled
    obtain ⟨op, hop⟩ := exists_unrolled_operator hsplit
    rw [run_unrolled_lines htarget hop (trailing_eq hstatement.1 hstatement.2) htargets hsome fun l hl r hr =>
      signed l (mem_of_mem_iterate hl) r (mem_of_mem_iterate (List.mem_of_mem_tail hr))] at unrolled
    have zero : op = .add → ∀ l ∈ iterate (lhs p t), blank (split t.line).type l = some 0 := by
      rintro rfl l -
      cases htype : (split t.line).type with
      | sum_equal => rfl
      | none | sum => simp [htype, unrolled_operator, Operator.piece] at hop
    obtain ⟨hleft, hright⟩ := volumes_lt hl₀ zero hfresh unrolled fun _ hl => ones_result hl
    exact .statement hstatement hterms hleft hright

end Ones

end CppTransport.Translator.SumAssignment
