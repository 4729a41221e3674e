import CppTransport.Library.Exceptions
import CppTransport.Library.Json

/-!
# Parts of objects

An object of a class with several bases is written by the serializers of its bases and of its members, each into the
same JSON object, and read by constructors that pick out their own keys. A `Part` is one such serializer with the
constructor that belongs to it, and with its law: what fits its context is written to paths of the part's own, and is
read back from every value in which these paths can still be read, provided that it is readable at all.

Parts are put together with `Part.and`: what two parts have written is read back if and only if both are readable.
Whether the parts of an object keep out of one another's way is then a question about lists of paths, which can be
decided.
-/

namespace CppTransport.Library.Json

open Value

/-! ### Texts -/

/-- The texts of some values. -/
def named {α : Type} (text : α → String) (values : List α) : List (String × α) := values.map fun a => (text a, a)

/-- Read the text of a value; a text that no value has is refused. -/
def asNamed {α : Type} (texts : List (String × α)) (refuse : String → String) (v : Value) : Except String α := do
  let s ← v.asString
  match texts.lookup s with
  | some a => return a
  | none => throw (refuse s)

theorem asNamed_string {α : Type} {texts : List (String × α)} {refuse : String → String} {s : String} {a : α}
    (h : texts.lookup s = some a) : asNamed texts refuse (string s) = .ok a := by
  simp only [asNamed, asString, ok_bind, h]
  rfl

/-- The refusal of a text. -/
def unknown (message s : String) : String := message ++ " '" ++ s ++ "'"

/-! ### Members that are objects -/

/-- What is written into a member. -/
def nest (k : String) (log : Log) : Log := log.map fun w => (k :: w.1, w.2)

theorem paths_nest (k : String) (log : Log) : (nest k log).map (·.1) = (log.map (·.1)).map (k :: ·) := by
  simp [nest, Function.comp_def]

/-- What has been written into a member is read there. -/
theorem reads_nest {k : String} {log : Log} {v : Value} (h : Reads v (nest k log)) (hne : log ≠ []) :
    ∃ inner, read [k] v = .ok inner ∧ Reads inner log := by
  have hread : ∀ w ∈ log, read (k :: w.1) v = .ok w.2 := fun w hw => h _ (List.mem_map_of_mem hw)
  obtain ⟨w, hw⟩ := List.exists_mem_of_ne_nil log hne
  obtain ⟨ms, hms, -⟩ := bind_eq_ok.mp (hread w hw)
  refine ⟨member ms k, read_cons_of_members hms, fun u hu => ?_⟩
  rw [← hread u hu, read_cons_of_members hms]

/-! ### Parts -/

/-- A serializer, and the constructor that reads what it has written. The constructor knows a context `c`. -/
structure Part (C α : Type) where
  serialize : α → Except String Log
  deserialize : C → Value → Except String α
  /-- Where the serializer writes. -/
  paths : List (List String)
  /-- What objects in the context are like. -/
  Fits : C → α → Prop
  Readable : α → Prop
  lawful : ∀ {c a}, Fits c a → ∃ log, serialize a = .ok log ∧ (log.map (·.1)).Sublist paths ∧
    ∀ v, Reads v log → (deserialize c v = .ok a ↔ Readable a)

namespace Part

variable {C α β : Type}

/-- A part that always writes the same members, and reads them. -/
def ofReads (serialize : α → Log) (deserialize : C → Value → Except String α) (paths : List (List String))
    (Fits : C → α → Prop) (hpaths : ∀ a, (serialize a).map (·.1) = paths)
    (hreads : ∀ c a v, Fits c a → Reads v (serialize a) → deserialize c v = .ok a) : Part C α where
  serialize a := .ok (serialize a)
  deserialize := deserialize
  paths := paths
  Fits := Fits
  Readable _ := True
  lawful {c a} h := ⟨_, rfl, by rw [hpaths], fun v hv => iff_of_true (hreads c a v h hv) trivial⟩

/-- A part that writes one value. -/
def field (path : List String) (value : α → Value) (convert : Value → Except String α)
    (h : ∀ a, convert (value a) = .ok a) : Part C α :=
  ofReads (fun a => [(path, value a)]) (fun _ => get path convert) [path] (fun _ _ => True) (fun _ => rfl)
    fun _ a _ _ hreads => (get_of_read (reads_cons.mp hreads).1).trans (h a)

/-- A part that writes the text of a value. -/
def text (path : List String) (text : α → String) (texts : List (String × α)) (refuse : String → String)
    (h : ∀ a, texts.lookup (text a) = some a) : Part C α :=
  field path (fun a => .string (text a)) (asNamed texts refuse) fun a => asNamed_string (h a)

/-- A part that writes into a member. -/
def member (k : String) (serialize : α → Log) (deserialize : Value → Except String α) (paths : List (List String))
    (Readable : α → Prop) (hne : ∀ a, serialize a ≠ [])
    (hpaths : ∀ a, ((serialize a).map (·.1)).Sublist paths)
    (hreads : ∀ a v, Reads v (serialize a) → (deserialize v = .ok a ↔ Readable a)) : Part C α where
  serialize a := .ok (nest k (serialize a))
  deserialize _ v := do deserialize (← read [k] v)
  paths := paths.map (k :: ·)
  Fits _ _ := True
  Readable := Readable
  lawful {c a} _ := by
    refine ⟨_, rfl, ?_, fun v hv => ?_⟩
    · rw [paths_nest]
      exact (hpaths a).map _
    · obtain ⟨inner, hread, hinner⟩ := reads_nest hv (hne a)
      rw [hread, ok_bind]
      exact hreads a inner hinner

/-- A part that writes nothing. -/
def nothing : Part C Unit :=
  ofReads (fun _ => []) (fun _ _ => .ok ()) [] (fun _ _ => True) (fun _ => rfl) fun _ _ _ _ _ => rfl

/-- One part after the other. -/
def and (p : Part C α) (q : Part C β) : Part C (α × β) where
  serialize x := do return (← p.serialize x.1) ++ (← q.serialize x.2)
  deserialize c v := do
    let a ← p.deserialize c v
    let b ← q.deserialize c v
    return (a, b)
  paths := p.paths ++ q.paths
  Fits c x := p.Fits c x.1 ∧ q.Fits c x.2
  Readable x := p.Readable x.1 ∧ q.Readable x.2
  lawful {c x} h := by
    obtain ⟨first, hfirst, first_paths, first_reads⟩ := p.lawful h.1
    obtain ⟨second, hsecond, second_paths, second_reads⟩ := q.lawful h.2
    refine ⟨first ++ second, by rw [hfirst, hsecond]; rfl, ?_, fun v hv => ?_⟩
    · rw [List.map_append]
      exact first_paths.append second_paths
    · obtain ⟨hv₁, hv₂⟩ := reads_append.mp hv
      rw [← first_reads v hv₁, ← second_reads v hv₂]
      obtain ⟨a, b⟩ := x
      simp only [bind_eq_ok, pure_eq_ok, Prod.mk.injEq]
      grind

end Part

/-! ### Lists -/

/-- A list that is written is read back if and only if each element is readable. -/
theorem list_round_trip {α : Type} {serialize : α → Except String Value} {deserialize : Value → Except String α}
    {Readable : α → Prop} {l : List α}
    (h : ∀ a ∈ l, ∃ v, serialize a = .ok v ∧ (deserialize v = .ok a ↔ Readable a)) :
    ∃ v, writeList serialize l = .ok v ∧ (readList deserialize v = .ok l ↔ ∀ a ∈ l, Readable a) := by
  obtain ⟨vs, hwrite, hread⟩ : ∃ vs, l.mapM serialize = .ok vs ∧
      (vs.mapM deserialize = .ok l ↔ ∀ a ∈ l, Readable a) := by
    induction l with
    | nil => exact ⟨[], rfl, iff_of_true rfl (by simp)⟩
    | cons a l ih =>
      obtain ⟨v, hv, ha⟩ := h a List.mem_cons_self
      obtain ⟨vs, hvs, hl⟩ := ih fun b hb => h b (List.mem_cons_of_mem _ hb)
      refine ⟨v :: vs, by rw [List.mapM_cons, hv, hvs]; rfl, ?_⟩
      rw [List.forall_mem_cons, ← ha, ← hl, List.mapM_cons]
      simp only [bind_eq_ok, pure_eq_ok, List.cons.injEq]
      grind
  refine ⟨array vs, by rw [writeList, hwrite]; rfl, ?_⟩
  rw [← hread]
  rfl

end CppTransport.Library.Json
