import CppTransport.Library.IndexLoops
import CppTransport.Translator.TokenList

/-!
# Sets of assignments

An `assignment_set` gives values to the indices of a database, one assignment after the other. Its
iterator is only a number; an assignment is made from the number when the iterator is dereferenced,
by repeated division. In right order the last index is the lowest digit, in left order the first.

## What is proved

`visit_begin_end`: a loop from `begin()` to `end()` ends after `size()` assignments, and these are all
the assignments of values to the indices, each once, in lexicographic order from the side that the
order names. The ranges may be anything whose product is below 2³².
-/

namespace CppTransport.Translator.AssignmentSet

open Library Tokenizer

/-! ### Databases of indices -/

/-- What an `index_database` asks of its records. -/
class HasLabel (α : Type) where
  get_label : α → Char

export HasLabel (get_label)

/-- Records in the order in which they have been added, at most one for each label. -/
structure index_database (α : Type) [HasLabel α] where
  records : List α
  nodup : (records.map get_label).Nodup

namespace index_database

variable {α : Type} [HasLabel α]

@[ext] theorem ext {db db' : index_database α} (h : db.records = db'.records) : db = db' := by
  cases db
  cases db'
  congr

def empty : index_database α := ⟨[], List.nodup_nil⟩

/-- A record whose label is there already is not added. -/
def emplace_front (db : index_database α) (r : α) : index_database α :=
  if h : get_label r ∈ db.records.map get_label then db
  else ⟨r :: db.records, by rw [List.map_cons, List.nodup_cons]; exact ⟨h, db.nodup⟩⟩

def emplace_back (db : index_database α) (r : α) : index_database α :=
  if h : get_label r ∈ db.records.map get_label then db
  else ⟨db.records ++ [r], by
    rw [List.map_append, List.map_singleton, ← List.concat_eq_append]
    exact db.nodup.concat h⟩

theorem records_emplace_front {db : index_database α} {r : α} (h : get_label r ∉ db.records.map get_label) :
    (db.emplace_front r).records = r :: db.records := by
  rw [emplace_front, dif_neg h]

theorem records_emplace_back {db : index_database α} {r : α} (h : get_label r ∉ db.records.map get_label) :
    (db.emplace_back r).records = db.records ++ [r] := by
  rw [emplace_back, dif_neg h]

theorem records_foldl_emplace_front {db : index_database α} {l : List α}
    (h : ((l.reverse ++ db.records).map get_label).Nodup) :
    (l.foldl emplace_front db).records = l.reverse ++ db.records := by
  induction l generalizing db with
  | nil => rfl
  | cons r l ih =>
    rw [List.reverse_cons, List.append_assoc, List.singleton_append] at h ⊢
    have hr : get_label r ∉ db.records.map get_label := by
      rw [List.map_append, List.map_cons] at h
      exact (List.nodup_cons.mp h.of_append_right).1
    have hrecords := records_emplace_front hr
    rw [List.foldl_cons, ih (by rwa [hrecords]), hrecords]

theorem records_foldl_emplace_back {db : index_database α} {l : List α}
    (h : ((db.records ++ l).map get_label).Nodup) : (l.foldl emplace_back db).records = db.records ++ l := by
  induction l generalizing db with
  | nil => simp
  | cons r l ih =>
    have hr : get_label r ∉ db.records.map get_label := by
      rw [List.map_append, List.map_cons, List.nodup_append] at h
      exact fun hmem => h.2.2 _ hmem _ List.mem_cons_self rfl
    have hrecords := records_emplace_back hr
    rw [List.append_cons] at h ⊢
    rw [List.foldl_cons, ih (by rwa [hrecords]), hrecords]

end index_database

/-- An index of a tensor. -/
structure abstract_index where
  label : Char
  classification : index_class
  /-- The number of fields of the model. -/
  fields : ℕ
  /-- The number of parameters of the model. -/
  params : ℕ
deriving DecidableEq, Repr

instance : HasLabel abstract_index := ⟨abstract_index.label⟩

/-- How many values the index takes; the number is unsigned. -/
def abstract_index.numeric_range (idx : abstract_index) : ℕ :=
  match idx.classification with
  | .field_only => idx.fields
  | .full => 2 * idx.fields % 2 ^ 32
  | .parameter => idx.params

/-- A value of an index. -/
structure index_value where
  abstract : abstract_index
  value : ℕ
deriving DecidableEq, Repr

instance : HasLabel index_value := ⟨fun v => v.abstract.label⟩

@[simp] theorem get_label_mk (idx : abstract_index) (value : ℕ) :
    get_label (index_value.mk idx value) = get_label idx := rfl

abbrev abstract_index_database := index_database abstract_index

abbrev indices_assignment := index_database index_value

/-! ### The set and its iterator -/

inductive index_order where
  | left
  | right
deriving DecidableEq, Repr

structure assignment_set where
  /-- Where the set is in memory; iterators of different sets are never equal. -/
  address : ℕ
  source_set : abstract_index_database
  assignments_size : ℕ
  order : index_order

/-- The constructor. -/
def assignment_set.construct (address : ℕ) (s : abstract_index_database) (o : index_order) : assignment_set where
  address
  source_set := s
  assignments_size := s.records.foldl (fun n idx => n * idx.numeric_range % 2 ^ 32) 1
  order := o

def assignment_set.size (p : assignment_set) : ℕ := p.assignments_size

def ERROR_ASSIGNMENT_ITERATOR_NO_PARENT : String :=
  "Internal error: increment or decrement of unattached assignment set iterator"

def ERROR_ASSIGNMENT_ITERATOR_INCREMENT : String :=
  "Internal error: attempt to increment assignment iterator after last element"

structure assignment_set_iterator where
  parent : Option assignment_set
  pos : ℕ
  max_pos : ℕ

def assignment_set.begin_iterator (p : assignment_set) : assignment_set_iterator := ⟨some p, 0, p.size⟩

def assignment_set.end_iterator (p : assignment_set) : assignment_set_iterator := ⟨some p, p.assignments_size, p.size⟩

/-- Values for indices, added with `insert` one by one. -/
def construct_assignment (insert : indices_assignment → index_value → indices_assignment) :
    List abstract_index → ℕ → indices_assignment → Except Failure indices_assignment
  | [], _, values => .ok values
  | idx :: rest, current, values =>
    -- the code divides by the range
    if idx.numeric_range = 0 then .error (.fault .undefined)
    else
      construct_assignment insert rest (current / idx.numeric_range)
        (insert values ⟨idx, current % idx.numeric_range⟩)

namespace assignment_set_iterator

/-- `operator!=` -/
def differs (it obj : assignment_set_iterator) : Except Failure Bool :=
  if it.pos ≠ obj.pos then .ok true
  else
    match it.parent, obj.parent with
    | some p, some q => .ok (p.address != q.address)
    | none, none => .error (.fault .undefined)
    | _, _ => .ok true

/-- `operator++` -/
def increment (it : assignment_set_iterator) : Except Failure assignment_set_iterator :=
  if it.parent.isNone then .error (.fault (.runtime_error ERROR_ASSIGNMENT_ITERATOR_NO_PARENT))
  else if it.pos = it.max_pos then .error (.fault (.runtime_error ERROR_ASSIGNMENT_ITERATOR_INCREMENT))
  else .ok { it with pos := (it.pos + 1) % 2 ^ 32 }

/-- `operator*` -/
def dereference (it : assignment_set_iterator) : Except Failure indices_assignment :=
  match it.parent with
  | none => .ok .empty
  | some p =>
    match p.order with
    | .left => construct_assignment .emplace_back p.source_set.records it.pos .empty
    | .right => construct_assignment .emplace_front p.source_set.records.reverse it.pos .empty

/-- What a loop from one iterator to another sees. -/
def visit : ℕ → assignment_set_iterator → assignment_set_iterator → Except Failure (List indices_assignment)
  | 0, _, _ => .error .unfinished
  | fuel + 1, it, last => do
    if ← it.differs last then
      let a ← it.dereference
      let it ← it.increment
      return a :: (← visit fuel it last)
    else return []

end assignment_set_iterator

/-! ### What a set stands for -/

/-- How many values an index takes. -/
def abstract_index.extent (idx : abstract_index) : ℕ :=
  match idx.classification with
  | .field_only => idx.fields
  | .full => 2 * idx.fields
  | .parameter => idx.params

/-- The indices with their ranges. -/
def extents (s : abstract_index_database) : List (abstract_index × ℕ) := s.records.map fun idx => (idx, idx.extent)

/-- The assignment gives a value in its range to each index, in the order of the indices. -/
def Assigns (s : abstract_index_database) (a : indices_assignment) : Prop :=
  List.Forall₂ (fun idx v => v.abstract = idx ∧ v.value < idx.extent) s.records a.records

/-- From the index that varies most slowly to the one that varies fastest. -/
def index_order.arrange {α : Type} : index_order → List α → List α
  | .left, l => l.reverse
  | .right, l => l

/-- Lexicographic order. -/
def index_order.Before (o : index_order) (a b : indices_assignment) : Prop :=
  List.Lex (· < ·) ((o.arrange a.records).map (·.value)) ((o.arrange b.records).map (·.value))

section Enumeration

variable {s : abstract_index_database} {o : index_order}

theorem arrange_arrange {α : Type} (o : index_order) (l : List α) : o.arrange (o.arrange l) = l := by
  cases o <;> simp [index_order.arrange]

theorem map_arrange {α β : Type} (o : index_order) (f : α → β) (l : List α) :
    (o.arrange l).map f = o.arrange (l.map f) := by
  cases o <;> simp [index_order.arrange]

/-- The assignment of given values. -/
def ofValues (values : List (abstract_index × ℕ)) : indices_assignment :=
  (values.map fun v => ⟨v.1, v.2⟩).foldl .emplace_back .empty

theorem records_ofValues {values : List (abstract_index × ℕ)} (h : values.map (·.1) = s.records) :
    (ofValues values).records = values.map fun v => ⟨v.1, v.2⟩ := by
  have hnodup := s.nodup
  rw [← h, List.map_map] at hnodup
  rw [ofValues, index_database.records_foldl_emplace_back]
  · rfl
  · simpa [index_database.empty, Function.comp_def] using hnodup

theorem map_fst_extents (s : abstract_index_database) : (extents s).map (·.1) = s.records := by
  simp [extents, Function.comp_def]

@[simp] theorem volume_arrange (indices : List (abstract_index × ℕ)) :
    volume (o.arrange indices) = volume indices := by
  cases o
  · simp [index_order.arrange, volume, List.prod_reverse]
  · rfl

/-! ### The number of assignments -/

theorem numeric_range_mod (idx : abstract_index) : idx.numeric_range % 2 ^ 32 = idx.extent % 2 ^ 32 := by
  rw [abstract_index.numeric_range, abstract_index.extent]
  cases idx.classification
  · exact Nat.mod_mod _ _
  · rfl
  · rfl

theorem volume_extents (s : abstract_index_database) : volume (extents s) = (s.records.map (·.extent)).prod := by
  simp [volume, extents, Function.comp_def]

/-- The product of the ranges wraps around. -/
theorem size_eq_mod (address : ℕ) :
    (assignment_set.construct address s o).size = volume (extents s) % 2 ^ 32 := by
  have hmod (l : List abstract_index) (n : ℕ) :
      l.foldl (fun n idx => n * idx.numeric_range % 2 ^ 32) n % 2 ^ 32 =
        n * (l.map (·.extent)).prod % 2 ^ 32 := by
    induction l generalizing n with
    | nil => simp
    | cons idx l ih =>
      rw [List.foldl_cons, ih, List.map_cons, List.prod_cons, Nat.mod_mul_mod, ← Nat.mul_assoc, Nat.mul_mod,
        Nat.mul_mod n, numeric_range_mod, ← Nat.mul_mod n, ← Nat.mul_mod]
  have hlt : (assignment_set.construct address s o).size < 2 ^ 32 := by
    rw [assignment_set.size, assignment_set.construct]
    cases hrecords : s.records using List.reverseRecOn with
    | nil => exact Nat.one_lt_two_pow (by decide)
    | append_singleton l idx =>
      rw [List.foldl_append]
      exact Nat.mod_lt _ (by decide)
  rw [← Nat.mod_eq_of_lt hlt, assignment_set.size, assignment_set.construct, hmod, Nat.one_mul, ← volume_extents]

theorem size_eq (address : ℕ) (h : volume (extents s) < 2 ^ 32) :
    (assignment_set.construct address s o).size = volume (extents s) := by
  rw [size_eq_mod, Nat.mod_eq_of_lt h]

/-- No range is zero or too big when there are assignments. -/
theorem numeric_range_eq (h : volume (extents s) < 2 ^ 32) (hpos : 0 < volume (extents s)) {idx : abstract_index}
    (hidx : idx ∈ s.records) : idx.numeric_range = idx.extent ∧ 0 < idx.extent := by
  have hdvd : idx.extent ∣ volume (extents s) := by
    refine List.dvd_prod ?_
    simp only [extents, List.map_map, List.mem_map]
    exact ⟨idx, hidx, rfl⟩
  have hlt : idx.extent < 2 ^ 32 := (Nat.le_of_dvd hpos hdvd).trans_lt h
  refine ⟨?_, Nat.pos_of_dvd_of_pos hdvd hpos⟩
  rw [abstract_index.numeric_range]
  rw [abstract_index.extent] at hlt ⊢
  cases hclass : idx.classification <;> simp only [hclass] at hlt ⊢
  exact Nat.mod_eq_of_lt hlt

/-! ### One assignment -/

theorem construct_assignment_eq (insert : indices_assignment → index_value → indices_assignment)
    {l : List abstract_index} (hl : ∀ idx ∈ l, idx.numeric_range = idx.extent ∧ 0 < idx.extent) (k : ℕ)
    (values : indices_assignment) :
    construct_assignment insert l k values =
      .ok (((lowDigits (l.map fun idx => (idx, idx.extent)) k).map fun v => ⟨v.1, v.2⟩).foldl insert values) := by
  induction l generalizing k values with
  | nil => rfl
  | cons idx l ih =>
    obtain ⟨hrange, hpos⟩ := hl idx List.mem_cons_self
    rw [construct_assignment, hrange, if_neg hpos.ne', ih fun idx h => hl idx (List.mem_cons_of_mem _ h)]
    rfl

/-- The iterator at a position stands for the digits of the position. -/
theorem dereference_eq {p : assignment_set} {n : ℕ} (h : volume (extents p.source_set) < 2 ^ 32)
    (hpos : 0 < volume (extents p.source_set)) (k : ℕ) :
    assignment_set_iterator.dereference ⟨some p, k, n⟩ =
      .ok (ofValues (p.order.arrange (digits (p.order.arrange (extents p.source_set)) k))) := by
  have hrange (idx : abstract_index) (hidx : idx ∈ p.source_set.records) := numeric_range_eq h hpos hidx
  rw [assignment_set_iterator.dereference]
  cases horder : p.order with
  | left =>
    simp only [horder]
    rw [construct_assignment_eq _ hrange, index_order.arrange, index_order.arrange, ← reverse_lowDigits,
      List.reverse_reverse]
    rfl
  | right =>
    simp only [horder]
    rw [construct_assignment_eq _ fun idx hidx => hrange idx (List.mem_reverse.mp hidx)]
    congr 1
    ext1
    have hvalues := reverse_lowDigits (extents p.source_set).reverse k
    rw [List.reverse_reverse] at hvalues
    have hfst : (digits (extents p.source_set) k).map (·.1) = p.source_set.records := by
      rw [← hvalues, List.map_reverse, map_fst_lowDigits, ← List.map_reverse, List.reverse_reverse, map_fst_extents]
    have hnodup := p.source_set.nodup
    rw [← hfst, List.map_map] at hnodup
    rw [index_order.arrange, index_order.arrange, records_ofValues hfst, ← hvalues,
      index_database.records_foldl_emplace_front]
    · simp [index_database.empty, extents]
    · rw [← hvalues] at hnodup
      simpa [index_database.empty, extents, Function.comp_def] using hnodup

/-! ### The loop -/

theorem differs_end (p : assignment_set) (k : ℕ) :
    assignment_set_iterator.differs ⟨some p, k, p.size⟩ p.end_iterator = .ok (k != p.size) := by
  by_cases hk : k = p.size
  · simp [assignment_set_iterator.differs, assignment_set.end_iterator, assignment_set.size, hk]
  · have hne : k ≠ p.end_iterator.pos := hk
    rw [assignment_set_iterator.differs, if_pos hne]
    simp [hk]

theorem increment_eq {p : assignment_set} {k : ℕ} (hsize : p.size < 2 ^ 32) (hk : k < p.size) :
    assignment_set_iterator.increment ⟨some p, k, p.size⟩ = .ok ⟨some p, k + 1, p.size⟩ := by
  have hne : k ≠ p.size := hk.ne
  simp only [assignment_set_iterator.increment, Option.isNone_some, Bool.false_eq_true, if_false, if_neg hne]
  rw [Nat.mod_eq_of_lt (by omega)]

/-- From a position to the end. -/
theorem visit_eq {p : assignment_set} {f : ℕ → indices_assignment} (hsize : p.size < 2 ^ 32)
    (hf : ∀ k < p.size, assignment_set_iterator.dereference ⟨some p, k, p.size⟩ = .ok (f k)) (fuel n k : ℕ)
    (hn : k + n = p.size) :
    assignment_set_iterator.visit fuel ⟨some p, k, p.size⟩ p.end_iterator =
      if n < fuel then .ok ((List.range' k n).map f) else .error .unfinished := by
  induction fuel generalizing n k with
  | zero => rfl
  | succ fuel ih =>
    rw [assignment_set_iterator.visit, differs_end]
    cases n with
    | zero =>
      obtain rfl : k = p.size := hn
      simp [bind, Except.bind, pure, Except.pure]
    | succ n =>
      have hk : k < p.size := by omega
      rw [hf k hk, increment_eq hsize hk]
      simp only [bind, Except.bind, bne_iff_ne, ne_eq, hk.ne, not_false_eq_true, if_true, ih n (k + 1) (by omega)]
      by_cases hfuel : n < fuel
      · rw [if_pos hfuel, if_pos (by omega), List.range'_succ]
        rfl
      · rw [if_neg hfuel, if_neg (by omega)]

/-- The assignments in the order in which they are visited. -/
def assigned (o : index_order) (s : abstract_index_database) : List indices_assignment :=
  (assignments (o.arrange (extents s))).map fun a => ofValues (o.arrange a)

theorem records_of_mem {a : List (abstract_index × ℕ)} (h : a ∈ assignments (o.arrange (extents s))) :
    (ofValues (o.arrange a)).records = (o.arrange a).map fun v => ⟨v.1, v.2⟩ := by
  refine records_ofValues (s := s) ?_
  rw [map_arrange, map_fst_of_mem_assignments h, map_arrange, arrange_arrange, map_fst_extents]

theorem forall₂_arrange {α β : Type} {R : α → β → Prop} {l : List α} {l' : List β} :
    List.Forall₂ R (o.arrange l) (o.arrange l') ↔ List.Forall₂ R l l' := by
  cases o
  · exact List.forall₂_reverse_iff
  · rfl

theorem mem_assigned {a : indices_assignment} : a ∈ assigned o s ↔ Assigns s a := by
  have hassigns (values : List (abstract_index × ℕ)) :
      values ∈ assignments (o.arrange (extents s)) ↔
        List.Forall₂ (fun idx v => v.1 = idx ∧ v.2 < idx.extent) s.records (o.arrange values) := by
    rw [mem_assignments, ← arrange_arrange o values, forall₂_arrange, arrange_arrange, extents,
      List.forall₂_map_left_iff]
  rw [assigned, List.mem_map, Assigns]
  constructor
  · rintro ⟨values, hvalues, rfl⟩
    rw [records_of_mem hvalues, List.forall₂_map_right_iff]
    exact (hassigns values).mp hvalues
  · intro h
    refine ⟨o.arrange (a.records.map fun v => (v.abstract, v.value)), ?_, ?_⟩
    · rw [hassigns, arrange_arrange, List.forall₂_map_right_iff]
      exact h
    · rw [arrange_arrange]
      ext1
      have hrecords : a.records.map (·.abstract) = s.records := by
        rw [← List.forall₂_eq_eq_eq, List.forall₂_map_left_iff]
        exact h.flip.imp fun _ _ hv => hv.1
      rw [records_ofValues (s := s) (by simpa [Function.comp_def] using hrecords)]
      simp [Function.comp_def]

theorem pairwise_assigned : (assigned o s).Pairwise o.Before := by
  rw [assigned, List.pairwise_map]
  refine (pairwise_assignments _).imp_of_mem fun {a b} ha hb hlt => ?_
  rw [index_order.Before, records_of_mem ha, records_of_mem hb, ← map_arrange, ← map_arrange, arrange_arrange,
    arrange_arrange, List.map_map, List.map_map]
  exact hlt

end Enumeration

/-- **Iterating** from the beginning of a set to its end visits the assignments of values to the indices,
each once and in lexicographic order, and ends after as many as the size of the set. -/
theorem visit_begin_end (address : ℕ) (s : abstract_index_database) (o : index_order)
    (h : (s.records.map (·.extent)).prod < 2 ^ 32) :
    let p := assignment_set.construct address s o
    ∃ visited : List indices_assignment,
      (∀ fuel, assignment_set_iterator.visit fuel p.begin_iterator p.end_iterator =
        if p.size < fuel then .ok visited else .error .unfinished) ∧
      visited.length = p.size ∧ p.size = (s.records.map (·.extent)).prod ∧
      (∀ a, a ∈ visited ↔ Assigns s a) ∧ visited.Nodup ∧ visited.Pairwise o.Before := by
  intro p
  rw [← volume_extents] at h ⊢
  have hsize : p.size = volume (extents s) := size_eq address h
  have hnodup : (assigned o s).Nodup := by
    refine pairwise_assigned.imp fun {a b} hlt heq => ?_
    rw [heq] at hlt
    exact List.lex_irrefl Nat.lt_irrefl _ hlt
  refine ⟨assigned o s, fun fuel => ?_, ?_, hsize, fun a => mem_assigned, hnodup, pairwise_assigned⟩
  · have hdereference (k : ℕ) (hk : k < p.size) :
        assignment_set_iterator.dereference ⟨some p, k, p.size⟩ =
          .ok (ofValues (o.arrange (digits (o.arrange (extents s)) k))) := by
      have hpos : 0 < volume (extents s) := by omega
      exact dereference_eq h hpos k
    have hvisit := visit_eq (hsize ▸ h) hdereference fuel p.size 0 (Nat.zero_add _)
    rw [assignment_set.begin_iterator, hvisit, ← List.range_eq_range', hsize, assigned, ← map_digits_range,
      volume_arrange, List.map_map]
    rfl
  · rw [assigned, List.length_map, length_assignments, volume_arrange, hsize]

/-- A field index and a phase-space index of a model with two fields. -/
def two_indices : abstract_index_database := ⟨[⟨'i', .field_only, 2, 1⟩, ⟨'A', .full, 2, 1⟩], by decide⟩

theorem visit_two_indices :
    ∃ visited : List indices_assignment,
      (∀ fuel, 8 < fuel → assignment_set_iterator.visit fuel
        (assignment_set.construct 0 two_indices .right).begin_iterator
        (assignment_set.construct 0 two_indices .right).end_iterator = .ok visited) ∧
      visited.length = 8 ∧ visited.Nodup := by
  obtain ⟨visited, hvisit, hlength, hsize, -, hnodup, -⟩ := visit_begin_end 0 two_indices .right (by decide)
  have height : (two_indices.records.map (·.extent)).prod = 8 := by decide
  rw [hsize, height] at hvisit hlength
  refine ⟨visited, fun fuel hfuel => ?_, hlength, hnodup⟩
  rw [hvisit, if_pos hfuel]

end CppTransport.Translator.AssignmentSet
