import Mathlib.Algebra.Ring.Int.Defs
import Mathlib.Algebra.Ring.Nat
import Mathlib.Data.List.Infix
import Mathlib.Data.List.Pairwise

/-!
# Objects with members

Values as a JSON library stores them, and the two operations through which records are written and
read: `write` assigns a value to the member that a path of keys leads to, and makes objects on the
way as they are needed; `read` follows a path. Both fail at a value that is not an object; where
there is nothing yet, a missing member is `null`.

A record is written by several serializers one after the other, so what is written is a log of
paths and values. When no path of the log leads to or through another one, everything that has been
written can be read afterwards (`read_writeAll`).
-/

namespace CppTransport.Library.Json

/-- A value. -/
inductive Value where
  | null
  | bool (b : Bool)
  | int (i : ℤ)
  | string (s : String)
  | array (elements : List Value)
  | object (members : List (String × Value))

namespace Value

/-- The members of an object; `null` becomes an object when members are asked for. -/
def members : Value → Except String (List (String × Value))
  | object ms => .ok ms
  | null => .ok []
  | _ => .error "requires objectValue"

/-- A member of an object, `null` if it is missing. -/
def member (ms : List (String × Value)) (k : String) : Value := (ms.lookup k).getD null

/-- Replace a member. -/
def insert (ms : List (String × Value)) (k : String) (v : Value) : List (String × Value) :=
  (k, v) :: ms.filter (·.1 ≠ k)

@[simp] theorem member_insert_self (ms : List (String × Value)) (k : String) (v : Value) :
    member (insert ms k v) k = v := by simp [member, insert]

theorem lookup_filter_of_ne {k l : String} (h : l ≠ k) (ms : List (String × Value)) :
    (ms.filter (·.1 ≠ k)).lookup l = ms.lookup l := by
  induction ms with
  | nil => rfl
  | cons m ms ih =>
    obtain ⟨j, w⟩ := m
    by_cases hj : j = k
    · subst hj
      rw [List.filter_cons_of_neg (by simp), ih, List.lookup_cons, beq_eq_false_iff_ne.mpr h]
    · rw [List.filter_cons_of_pos (by simpa using hj), List.lookup_cons, List.lookup_cons, ih]

@[simp] theorem member_insert_of_ne {k l : String} (ms : List (String × Value)) (v : Value) (h : l ≠ k) :
    member (insert ms k v) l = member ms l := by
  rw [member, insert, List.lookup_cons, beq_eq_false_iff_ne.mpr h, member]
  simp only [lookup_filter_of_ne h]

/-- Read what a path leads to. -/
def read : List String → Value → Except String Value
  | [], v => .ok v
  | k :: path, v => do
    let ms ← v.members
    read path (member ms k)

/-- Assign a value to what a path leads to. -/
def write : List String → Value → Value → Except String Value
  | [], x, _ => .ok x
  | k :: path, x, v => do
    let ms ← v.members
    let inner ← write path x (member ms k)
    return object (insert ms k inner)

/-! #### Conversions -/

/-- A signed integer of 64 bits. -/
abbrev LargestInt := {i : ℤ // -2 ^ 63 ≤ i ∧ i < 2 ^ 63}

/-- An unsigned integer of 32 bits. -/
abbrev UInt := Fin (2 ^ 32)

instance (priority := high) uint_neZero : NeZero (2 ^ 32) := ⟨by decide⟩

def asString : Value → Except String String
  | null => .ok ""
  | bool b => .ok (if b then "true" else "false")
  | int i => .ok (toString i)
  | string s => .ok s
  | _ => .error "Type is not convertible to string"

def asBool : Value → Except String Bool
  | null => .ok false
  | bool b => .ok b
  | int i => .ok (i ≠ 0)
  | _ => .error "Value is not convertible to bool."

def asUInt : Value → Except String UInt
  | null => .ok 0
  | bool b => .ok (if b then 1 else 0)
  | int i =>
    if h : 0 ≤ i ∧ i < 2 ^ 32 then .ok ⟨i.toNat, by omega⟩ else .error "LargestInt out of UInt range"
  | _ => .error "Value is not convertible to UInt."

def asLargestInt : Value → Except String LargestInt
  | null => .ok ⟨0, by decide⟩
  | bool b => .ok (if b then ⟨1, by decide⟩ else ⟨0, by decide⟩)
  | int i => if h : -2 ^ 63 ≤ i ∧ i < 2 ^ 63 then .ok ⟨i, h⟩ else .error "LargestUInt out of Int64 range"
  | _ => .error "Value is not convertible to Int64."

/-- The elements of an array, as the readers of lists assert it. -/
def asArray : Value → Except String (List Value)
  | array elements => .ok elements
  | _ => .error "isArray()"

/-- `append`: `null` becomes an array when a value is appended. -/
def append (x : Value) : Value → Except String Value
  | array elements => .ok (array (elements ++ [x]))
  | null => .ok (array [x])
  | _ => .error "requires arrayValue"

/-- What a loop over a value goes through. -/
def elements : Value → List Value
  | array elements => elements
  | object ms => ms.map (·.2)
  | _ => []

@[simp] theorem asUInt_int (n : UInt) : asUInt (int (n : ℕ)) = .ok n := by
  rw [asUInt, dif_pos ⟨by omega, by omega⟩]
  rfl

@[simp] theorem asLargestInt_int (t : LargestInt) : asLargestInt (int t) = .ok t := by
  rw [asLargestInt, dif_pos t.2]

end Value

open Value

/-- Write elements of a list one by one. -/
def writeList {α : Type} (element : α → Except String Value) (l : List α) : Except String Value := do
  return array (← l.mapM element)

/-- Read them. -/
def readList {α : Type} (element : Value → Except String α) (v : Value) : Except String (List α) := do
  (← v.asArray).mapM element

/-- A list whose elements can be read can be read. -/
theorem readList_writeList {α : Type} {serialize : α → Except String Value} {deserialize : Value → Except String α}
    {l : List α} (h : ∀ a ∈ l, ∃ v, serialize a = .ok v ∧ deserialize v = .ok a) :
    ∃ v, writeList serialize l = .ok v ∧ readList deserialize v = .ok l := by
  obtain ⟨vs, hwrite, hread⟩ : ∃ vs, l.mapM serialize = .ok vs ∧ vs.mapM deserialize = .ok l := by
    induction l with
    | nil => exact ⟨[], rfl, rfl⟩
    | cons a l ih =>
      obtain ⟨v, hv, ha⟩ := h a List.mem_cons_self
      obtain ⟨vs, hvs, hl⟩ := ih fun b hb => h b (List.mem_cons_of_mem _ hb)
      exact ⟨v :: vs, by rw [List.mapM_cons, hv, hvs]; rfl, by rw [List.mapM_cons, ha, hl]; rfl⟩
  refine ⟨array vs, ?_, ?_⟩
  · rw [writeList, hwrite]
    rfl
  · exact hread

/-- What serializers write. -/
abbrev Log := List (List String × Value)

/-- Read and convert what a path leads to. -/
def get {α : Type} (path : List String) (convert : Value → Except String α) (reader : Value) : Except String α := do
  convert (← read path reader)

/-- All that is in a log can be read. -/
def Reads (v : Value) (log : Log) : Prop := ∀ w ∈ log, read w.1 v = .ok w.2

theorem reads_nil (v : Value) : Reads v [] := fun _ h => by cases h

@[simp] theorem reads_cons {v : Value} {w : List String × Value} {log : Log} :
    Reads v (w :: log) ↔ read w.1 v = .ok w.2 ∧ Reads v log := List.forall_mem_cons

@[simp] theorem reads_append {v : Value} {log more : Log} : Reads v (log ++ more) ↔ Reads v log ∧ Reads v more :=
  List.forall_mem_append

theorem get_of_read {α : Type} {path : List String} {convert : Value → Except String α} {reader v : Value}
    (h : read path reader = .ok v) : get path convert reader = convert v := by
  rw [get, h]
  rfl

/-- Write one after the other. -/
def writeAll (log : Log) (v : Value) : Except String Value := log.foldlM (fun v w => write w.1 w.2 v) v

/-- Neither path leads to or through the other one. -/
def Apart (p q : List String) : Prop := ¬ p <+: q ∧ ¬ q <+: p

instance : DecidableRel Apart := fun _ _ => inferInstanceAs (Decidable (_ ∧ _))

/-- No path leads to or through another one. -/
def Separate (paths : List (List String)) : Prop := paths.Pairwise Apart

instance : DecidablePred Separate := fun paths => inferInstanceAs (Decidable (paths.Pairwise Apart))

/-- Members can be added to what a path leads to. -/
def Open (p : List String) (v : Value) : Prop := ∃ w ms, read p v = .ok w ∧ w.members = .ok ms

/-! ### One assignment -/

variable {p q r : List String} {x v v' : Value}

theorem read_cons_of_members {k : String} {ms : List (String × Value)} (h : v.members = .ok ms) :
    read (k :: p) v = read p (member ms k) := by
  rw [Value.read, h]
  rfl

/-- What is assigned is a member of an object. -/
theorem write_cons_eq {k : String} (h : write (k :: p) x v = .ok v') :
    ∃ ms inner, v.members = .ok ms ∧ write p x (member ms k) = .ok inner ∧ v' = object (insert ms k inner) := by
  rw [Value.write] at h
  cases hms : v.members with
  | error e => simp [hms, bind, Except.bind] at h
  | ok ms =>
    cases hinner : write p x (member ms k) with
    | error e => simp [hms, hinner, bind, Except.bind] at h
    | ok inner =>
      simp only [hms, hinner, bind, Except.bind, pure, Except.pure, Except.ok.injEq] at h
      exact ⟨ms, inner, rfl, hinner, h.symm⟩

/-- An assignment succeeds when the path leads through objects. -/
theorem write_ok (h : ∀ r, r <+: q → r ≠ q → Open r v) : ∃ v', write q x v = .ok v' := by
  induction q generalizing v with
  | nil => exact ⟨x, rfl⟩
  | cons k path ih =>
    obtain ⟨w, ms, hread, hms⟩ := h [] (List.nil_prefix) (by simp)
    obtain rfl := Except.ok.inj hread
    obtain ⟨inner, hinner⟩ : ∃ v', write path x (member ms k) = .ok v' := by
      refine ih fun r hr hne => ?_
      obtain ⟨w', ms', hread', hms'⟩ := h (k :: r) (List.cons_prefix_cons.mpr ⟨rfl, hr⟩) (by simpa using hne)
      rw [read_cons_of_members hms] at hread'
      exact ⟨w', ms', hread', hms'⟩
    exact ⟨object (insert ms k inner), by simp [Value.write, hms, hinner, bind, Except.bind, pure, Except.pure]⟩

/-- What has been assigned is read. -/
theorem read_write_self (h : write q x v = .ok v') : read q v' = .ok x := by
  induction q generalizing v v' with
  | nil => exact h.symm
  | cons k path ih =>
    obtain ⟨ms, inner, -, hinner, rfl⟩ := write_cons_eq h
    rw [read_cons_of_members rfl, member_insert_self]
    exact ih hinner

/-- An assignment changes nothing elsewhere. -/
theorem read_write_of_apart (h : write q x v = .ok v') (hp : Apart p q) : read p v' = read p v := by
  induction q generalizing p v v' with
  | nil => exact absurd List.nil_prefix hp.2
  | cons k path ih =>
    obtain ⟨ms, inner, hms, hinner, rfl⟩ := write_cons_eq h
    match p, hp with
    | [], hp => exact absurd List.nil_prefix hp.1
    | l :: p, hp =>
      rw [read_cons_of_members rfl, read_cons_of_members hms]
      by_cases hl : l = k
      · subst hl
        rw [member_insert_self]
        simp only [Apart, List.cons_prefix_cons, true_and] at hp
        exact ih hinner hp
      · rw [member_insert_of_ne _ _ hl]

/-- A path to what has been assigned leads through objects. -/
theorem open_write (h : write q x v = .ok v') (hr : r <+: q) (hne : r ≠ q) : Open r v' := by
  induction q generalizing r v v' with
  | nil => exact absurd (List.prefix_nil.mp hr) hne
  | cons k path ih =>
    obtain ⟨ms, inner, -, hinner, rfl⟩ := write_cons_eq h
    match r, hr, hne with
    | [], _, _ => exact ⟨_, _, rfl, rfl⟩
    | l :: r, hr, hne =>
      obtain ⟨rfl, htail⟩ := List.cons_prefix_cons.mp hr
      obtain ⟨w, ms', hread, hms'⟩ := ih hinner htail (by simpa using hne)
      refine ⟨w, ms', ?_, hms'⟩
      rw [read_cons_of_members rfl, member_insert_self]
      exact hread

/-! ### Many assignments -/

/-- The paths that are written later lead through objects, and are not touched by what has been written. -/
def Fits (done later : Log) (v : Value) : Prop :=
  Reads v done ∧ ∀ w ∈ later, ∀ r, r <+: w.1 → r ≠ w.1 → Open r v

theorem fits_write {w : List String × Value} {done later : Log}
    (hseparate : Separate ((done ++ w :: later).map (·.1))) (h : Fits done (w :: later) v)
    (hwrite : write w.1 w.2 v = .ok v') : Fits (done ++ [w]) later v' := by
  rw [Separate, List.map_append, List.map_cons, List.pairwise_append] at hseparate
  obtain ⟨-, hright, hcross⟩ := hseparate
  obtain ⟨hdone, hlater⟩ := h
  constructor
  · intro u hu
    obtain hu | hu := List.mem_append.mp hu
    · have hapart : Apart u.1 w.1 := hcross _ (List.mem_map_of_mem hu) _ List.mem_cons_self
      rw [read_write_of_apart hwrite hapart]
      exact hdone u hu
    · rw [List.mem_singleton.mp hu]
      exact read_write_self hwrite
  · intro u hu r hr hne
    have hapart : Apart w.1 u.1 := (List.pairwise_cons.mp hright).1 _ (List.mem_map_of_mem hu)
    by_cases hrw : r <+: w.1
    · exact open_write hwrite hrw fun heq => hapart.1 (heq ▸ hr)
    · have hwr : ¬ w.1 <+: r := fun hwr => hapart.1 (hwr.trans hr)
      obtain ⟨x, ms, hread, hms⟩ := hlater u (List.mem_cons_of_mem _ hu) r hr hne
      exact ⟨x, ms, by rw [read_write_of_apart hwrite ⟨hrw, hwr⟩, hread], hms⟩

/-- **Serializers that do not overwrite one another**: everything that has been written can be read. -/
theorem read_writeAll {log : Log} (h : Separate (log.map (·.1))) :
    ∃ v, writeAll log (object []) = .ok v ∧ Reads v log := by
  have hrun : ∀ (later done : Log) (v : Value), Separate ((done ++ later).map (·.1)) → Fits done later v →
      ∃ v', writeAll later v = .ok v' ∧ Fits (done ++ later) [] v' := by
    intro later
    induction later with
    | nil => exact fun done v _ hfits => ⟨v, rfl, by simpa using hfits⟩
    | cons w later ih =>
      intro done v hseparate hfits
      obtain ⟨v₁, hwrite⟩ := write_ok (x := w.2) (hfits.2 w List.mem_cons_self)
      have hnext : Separate ((done ++ [w] ++ later).map (·.1)) := by simpa using hseparate
      obtain ⟨v', hrest, hfits'⟩ := ih (done ++ [w]) v₁ hnext (fits_write hseparate hfits hwrite)
      refine ⟨v', ?_, by simpa using hfits'⟩
      rw [writeAll, List.foldlM_cons, hwrite]
      exact hrest
  have hstart : Fits [] log (object []) := by
    refine ⟨reads_nil _, fun w _ r _ _ => ?_⟩
    have hnull : ∀ r, read r null = .ok null := by
      intro r
      induction r with
      | nil => rfl
      | cons k r ih => rw [read_cons_of_members rfl]; exact ih
    cases r with
    | nil => exact ⟨_, _, rfl, rfl⟩
    | cons k r => exact ⟨null, [], by rw [read_cons_of_members rfl]; exact hnull r, rfl⟩
  obtain ⟨v, hwritten, hfits⟩ := hrun log [] (object []) h hstart
  exact ⟨v, hwritten, by simpa using hfits.1⟩

end CppTransport.Library.Json
