import CppTransport.Library.Exceptions
import CppTransport.Library.Json
import CppTransport.Library.Transition
import Mathlib.Data.Fintype.Card

/-!
# Output tasks

An output task is a list of derived products with tags, numbered by a counter in the order in which they were added.
The scheduler knows a work item by its serial number. A task is stored with the serial numbers of its elements, and
without the counter: whoever reads it back sets the counter to the largest serial number.

## The model

`D` are the derived products of a repository, each of which is found by its name. A JSON document is a value of
`CppTransport.Library.Json`. Serial numbers are `unsigned int`s, which wrap around. An addition that throws leaves the
task with what it had added before.

## What is proved

The counter that is read back is one too small, so that the next element that is added repeats a serial number
(`largest_mem`, `nodup_extends_iff`); and tags are appended to an object, which throws as soon as there is one
(`serialize_element_ok_iff`). `output_task_persists_iff`: a history of a task persists, with serial numbers that stay
distinct, exactly if it meets neither, and does not run out of serial numbers.
-/

namespace CppTransport.Runtime.OutputTasks

open Library Json Value

def CPPTRANSPORT_NODE_TASK_DESCRIPTION : String := "description"
def CPPTRANSPORT_NODE_TASK_TYPE : String := "task-type"
def CPPTRANSPORT_NODE_TASK_TYPE_OUTPUT : String := "output-task"
def CPPTRANSPORT_NODE_OUTPUT_ARRAY : String := "derived-data-tasks"
def CPPTRANSPORT_NODE_OUTPUT_DERIVED_PRODUCT : String := "label"
def CPPTRANSPORT_NODE_OUTPUT_SERIAL : String := "serial"
def CPPTRANSPORT_NODE_OUTPUT_TAGS : String := "tags"

def CPPTRANSPORT_OUTPUT_TASK_FILENAME_COLLISION_A : String :=
  "Output task error: attempt to add two derived products with the filename"
def CPPTRANSPORT_OUTPUT_TASK_FILENAME_COLLISION_B : String := "to output task"
def CPPTRANSPORT_OUTPUT_TASK_NAME_COLLISION_A : String :=
  "Output task error: attempt to add two derived products with the same name"
def CPPTRANSPORT_OUTPUT_TASK_NAME_COLLISION_B : String := "to output task"

/-! ### Tasks -/

/-- The derived products of a repository. -/
structure Products (D : Type) where
  get_name : D → String
  get_filename : D → String
  /-- `derived_product_finder`. -/
  pfinder : String → Except String D
  found : ∀ d, pfinder (get_name d) = .ok d

structure output_task_element (D : Type) where
  product : D
  tags : List String
  serial : UInt
deriving DecidableEq

structure output_task (D : Type) where
  name : String
  description : String
  elements : List (output_task_element D)
  /-- Serial number of the next element. -/
  serial : UInt

variable {D : Type} (P : Products D)

namespace output_task

/-- Elements that have been added are numbered. -/
def emplace_back (t : output_task D) (prod : D) (tags : List String) : output_task D :=
  { t with
    elements := t.elements ++ [⟨prod, tags, t.serial⟩]
    serial := t.serial + 1 }

/-- The checks of `add_element` against one element. -/
def collision (name : String) (prod : D) (ele : output_task_element D) : Option String :=
  if P.get_filename ele.product = P.get_filename prod then
    some (CPPTRANSPORT_OUTPUT_TASK_FILENAME_COLLISION_A ++ " " ++ P.get_filename prod ++ " " ++
      CPPTRANSPORT_OUTPUT_TASK_FILENAME_COLLISION_B ++ " '" ++ name ++ "'")
  else if P.get_name ele.product = P.get_name prod then
    some (CPPTRANSPORT_OUTPUT_TASK_NAME_COLLISION_A ++ " " ++ P.get_name prod ++ " " ++
      CPPTRANSPORT_OUTPUT_TASK_NAME_COLLISION_B ++ " '" ++ name ++ "'")
  else none

def add_element (t : output_task D) (prod : D) (tags : List String) : Except String (output_task D) :=
  match t.elements.findSome? (collision P t.name prod) with
  | some what => .error what
  | none => .ok (t.emplace_back prod tags)

/-- `operator+=` for another task, given by its elements: what has become of the task, and what was thrown. -/
def add_task (t : output_task D) : List (D × List String) → output_task D × Option String
  | [] => (t, none)
  | (prod, tags) :: elements =>
    match t.add_element P prod tags with
    | .error what => (t, some what)
    | .ok t => t.add_task elements

end output_task

/-! ### Documents -/

def output_task_element.log (ele : output_task_element D) (tag_list : Value) : Log :=
  [([CPPTRANSPORT_NODE_OUTPUT_DERIVED_PRODUCT], .string (P.get_name ele.product)),
    ([CPPTRANSPORT_NODE_OUTPUT_SERIAL], .int ele.serial.val),
    ([CPPTRANSPORT_NODE_OUTPUT_TAGS], tag_list)]

def output_task_element.serialize (ele : output_task_element D) : Except String Value := do
  let tag_list ← ele.tags.foldlM (fun tag_list tag => append (.string tag) tag_list) (.object [])
  writeAll (ele.log P tag_list) (.object [])

def output_task_element.deserialize (reader : Value) : Except String (output_task_element D) := do
  let product_name ← get [CPPTRANSPORT_NODE_OUTPUT_DERIVED_PRODUCT] asString reader
  let sn ← get [CPPTRANSPORT_NODE_OUTPUT_SERIAL] asUInt reader
  let tags ← get [CPPTRANSPORT_NODE_OUTPUT_TAGS] (fun tag_list => tag_list.elements.mapM asString) reader
  let product ← P.pfinder product_name
  return ⟨product, tags, sn⟩

namespace output_task

def log (t : output_task D) (element_list : Value) : Log :=
  [([CPPTRANSPORT_NODE_TASK_TYPE], .string CPPTRANSPORT_NODE_TASK_TYPE_OUTPUT),
    ([CPPTRANSPORT_NODE_OUTPUT_ARRAY], element_list),
    ([CPPTRANSPORT_NODE_TASK_DESCRIPTION], .string t.description)]

def serialize (t : output_task D) : Except String Value := do
  let element_list ← writeList (output_task_element.serialize P) t.elements
  writeAll (t.log element_list) (.object [])

/-- `if(sn > serial) serial = sn;` over the elements. -/
def largest (elements : List (output_task_element D)) : UInt :=
  elements.foldl (fun serial ele => if ele.serial > serial then ele.serial else serial) 0

/-- The deserialization constructor. -/
def deserialize (nm : String) (reader : Value) : Except String (output_task D) := do
  let description ← get [CPPTRANSPORT_NODE_TASK_DESCRIPTION] asString reader
  let elements ← get [CPPTRANSPORT_NODE_OUTPUT_ARRAY] (readList (output_task_element.deserialize P)) reader
  return ⟨nm, description, elements, largest elements⟩

/-- A task is stored, and read back. -/
def reload (t : output_task D) : Except String (output_task D) := do deserialize P t.name (← t.serialize P)

end output_task

/-! ### Reading back -/

section Reload

variable {P} {ele : output_task_element D} {t t' : output_task D}

/-- An object has no elements to append to. -/
theorem tag_list_of_ok {tags : List String} {v : Value}
    (h : tags.foldlM (fun tag_list tag => append (.string tag) tag_list) (.object []) = .ok v) : tags = [] := by
  cases tags with
  | nil => rfl
  | cons tag tags => cases h

/-- An element without tags is read back. -/
theorem element_round_trip (h : ele.tags = []) :
    ∃ v, ele.serialize P = .ok v ∧ output_task_element.deserialize P v = .ok ele := by
  obtain ⟨v, written, reads⟩ : ∃ v, writeAll (ele.log P (.object [])) (.object []) = .ok v ∧
      Reads v (ele.log P (.object [])) :=
    read_writeAll (by simp only [output_task_element.log, List.map]; decide)
  refine ⟨v, ?_, ?_⟩
  · rw [output_task_element.serialize, h]
    exact written
  · simp only [output_task_element.log, reads_cons] at reads
    obtain ⟨name, serial, tags, -⟩ := reads
    obtain ⟨product, _, sn⟩ := ele
    cases h
    simp only [output_task_element.deserialize, get_of_read name, get_of_read serial, get_of_read tags, asUInt_int,
      asString, bind, Except.bind, P.found]
    rfl

/-- **Elements** can be stored exactly if they have no tags. -/
theorem serialize_element_ok_iff : (∃ v, ele.serialize P = .ok v) ↔ ele.tags = [] := by
  constructor
  · rintro ⟨v, h⟩
    obtain ⟨tag_list, htags, -⟩ := bind_eq_ok.mp h
    exact tag_list_of_ok htags
  · intro h
    obtain ⟨v, written, -⟩ := element_round_trip h
    exact ⟨v, written⟩

/-- A task whose elements have no tags is read back, but for its counter. -/
theorem reload_of_untagged (h : ∀ ele ∈ t.elements, ele.tags = []) :
    t.reload P = .ok { t with serial := output_task.largest t.elements } := by
  obtain ⟨element_list, listed, read⟩ : ∃ v, writeList (output_task_element.serialize P) t.elements = .ok v ∧
      readList (output_task_element.deserialize P) v = .ok t.elements :=
    readList_writeList fun ele hele => element_round_trip (h ele hele)
  obtain ⟨v, written, reads⟩ : ∃ v, writeAll (t.log element_list) (.object []) = .ok v ∧
      Reads v (t.log element_list) :=
    read_writeAll (by simp only [output_task.log, List.map]; decide)
  have serialized : t.serialize P = .ok v := by
    rw [output_task.serialize, listed]
    exact written
  simp only [output_task.log, reads_cons] at reads
  obtain ⟨-, elements, description, -⟩ := reads
  rw [output_task.reload, serialized]
  simp only [output_task.deserialize, get_of_read elements, get_of_read description, asString, bind, Except.bind, read]
  rfl

/-- A task that is read back had no tags. -/
theorem untagged_of_reload (h : t.reload P = .ok t') : ∀ ele ∈ t.elements, ele.tags = [] := by
  obtain ⟨v, serialized, -⟩ := bind_eq_ok.mp h
  obtain ⟨element_list, listed, -⟩ := bind_eq_ok.mp serialized
  obtain ⟨vs, mapped, -⟩ := bind_eq_ok.mp listed
  exact fun ele hele => serialize_element_ok_iff.mp (exists_of_mapM_eq_ok mapped ele hele)

end Reload

/-! ### Histories -/

/-- What can be done with a task after its construction; `+=` for a derived product is `add_element` without tags. -/
inductive Operation (D : Type) where
  | add_element (prod : D) (tags : List String)
  /-- `+=` for another task, given by its elements. -/
  | add_task (elements : List (D × List String))
  /-- Store the task and read it back. -/
  | reload

/-- The products that an operation tries to add. -/
def Operation.products : Operation D → List D
  | add_element prod _ => [prod]
  | add_task elements => elements.map (·.1)
  | reload => []

/-- A new task: empty, or with one element. -/
inductive Constructed : output_task D → Prop where
  | empty (name description : String) : Constructed ⟨name, description, [], 0⟩
  | single (name description : String) (prod : D) (tags : List String) :
    Constructed ⟨name, description, [⟨prod, tags, 0⟩], 1⟩

/-- A task, and whether it has been read back with elements. -/
structure History (D : Type) where
  task : output_task D
  reloaded : Bool

namespace History

/-- One operation; none if a task cannot be stored or read back. -/
def next (h : History D) : Operation D → Option (History D)
  | .add_element prod tags =>
    match h.task.add_element P prod tags with
    | .error _ => some h
    | .ok task => some { h with task := task }
  | .add_task elements => some { h with task := (h.task.add_task P elements).1 }
  | .reload =>
    match h.task.reload P with
    | .error _ => none
    | .ok task => some ⟨task, h.reloaded || !task.elements.isEmpty⟩

/-- What is asked of an operation: it does not fail to store or read the task, the task that is read back has the same
elements, and serial numbers are distinct. -/
def Persists (h : History D) (op : Operation D) : Prop :=
  ∃ h', h.next P op = some h' ∧ (h'.task.elements.map (·.serial)).Nodup ∧
    (op = .reload → h'.task.elements = h.task.elements)

/-- Products of different names and filenames. -/
def Distinct (d e : D) : Prop := P.get_filename d ≠ P.get_filename e ∧ P.get_name d ≠ P.get_name e

instance (d e : D) : Decidable (Distinct P d e) := inferInstanceAs (Decidable (_ ∧ _))

/-- The products that are added to those present: up to the first one that collides. -/
def admitted (present : List D) : List D → List D
  | [] => []
  | d :: ds => if ∀ e ∈ present, Distinct P e d then d :: admitted (present ++ [d]) ds else []

/-- The products that an operation adds to the task. -/
def additions (h : History D) (op : Operation D) : List D :=
  admitted P (h.task.elements.map (·.product)) op.products

/-- No tags when the task is stored, nothing added to a task that has been read back, and no more elements than there
are serial numbers. -/
def Clean (h : History D) : Operation D → Prop
  | .reload => ∀ ele ∈ h.task.elements, ele.tags = []
  | op => h.additions P op ≠ [] →
      h.reloaded = false ∧ h.task.elements.length + (h.additions P op).length ≤ 2 ^ 32

end History

/-! ### Additions -/

section Additions

variable {P} {t : output_task D} {prod : D} {tags : List String}

open History

theorem collision_eq_none_iff {name : String} {ele : output_task_element D} :
    output_task.collision P name prod ele = none ↔ Distinct P ele.product prod := by
  unfold output_task.collision Distinct
  split_ifs <;> simp [*]

theorem findSome_eq_none_iff : t.elements.findSome? (output_task.collision P t.name prod) = none ↔
    ∀ e ∈ t.elements.map (·.product), Distinct P e prod := by
  simp only [List.findSome?_eq_none_iff, collision_eq_none_iff, List.forall_mem_map]

theorem add_element_of_distinct (h : ∀ e ∈ t.elements.map (·.product), Distinct P e prod) :
    t.add_element P prod tags = .ok (t.emplace_back prod tags) := by
  rw [output_task.add_element, findSome_eq_none_iff.mpr h]

theorem add_element_of_collision (h : ¬ ∀ e ∈ t.elements.map (·.product), Distinct P e prod) :
    ∃ what, t.add_element P prod tags = .error what := by
  rw [← findSome_eq_none_iff (t := t), ← ne_eq, Option.ne_none_iff_exists'] at h
  obtain ⟨what, h⟩ := h
  exact ⟨what, by rw [output_task.add_element, h]⟩

theorem serial_succ (serial : UInt) (i : ℕ) :
    serial + 1 + Fin.ofNat (2 ^ 32) i = serial + Fin.ofNat (2 ^ 32) (i + 1) := by
  ext
  simp only [Fin.val_add, Fin.val_ofNat, Fin.val_one]
  omega

/-- Elements and counter after additions. -/
structure Extends (t t' : output_task D) (n : ℕ) : Prop where
  serials : t'.elements.map (·.serial) =
    t.elements.map (·.serial) ++ (List.range n).map fun i => t.serial + Fin.ofNat (2 ^ 32) i
  serial : t'.serial = t.serial + Fin.ofNat (2 ^ 32) n

theorem Extends.refl (t : output_task D) : Extends t t 0 := ⟨by simp, by simp⟩

theorem Extends.head {t' : output_task D} {n : ℕ} (h : Extends (t.emplace_back prod tags) t' n) :
    Extends t t' (n + 1) where
  serials := by
    have later : ∀ i, (t.emplace_back prod tags).serial + Fin.ofNat (2 ^ 32) i =
        t.serial + Fin.ofNat (2 ^ 32) (i + 1) := serial_succ t.serial
    have first : (t.emplace_back prod tags).elements.map (·.serial) = t.elements.map (·.serial) ++ [t.serial] := by
      simp [output_task.emplace_back]
    have zero : t.serial + Fin.ofNat (2 ^ 32) 0 = t.serial := by simp
    simp only [h.serials, first, later, List.append_assoc, List.range_succ_eq_map, List.map_cons, List.map_map, zero]
    rfl
  serial := by
    rw [h.serial]
    exact serial_succ t.serial n

/-- **`add_task`** adds what is admitted. -/
theorem extends_add_task (elements : List (D × List String)) :
    Extends t (t.add_task P elements).1 (admitted P (t.elements.map (·.product)) (elements.map (·.1))).length := by
  induction elements generalizing t with
  | nil => exact .refl t
  | cons element elements ih =>
    obtain ⟨prod, tags⟩ := element
    rw [output_task.add_task, List.map_cons, admitted]
    split_ifs with distinct
    · rw [add_element_of_distinct distinct]
      have rest := ih (t := t.emplace_back prod tags)
      simp only [output_task.emplace_back, List.map_append, List.map_cons, List.map_nil] at rest
      exact rest.head
    · obtain ⟨what, error⟩ : ∃ what, t.add_element P prod tags = .error what := add_element_of_collision distinct
      rw [error]
      exact .refl t

end Additions

/-! ### Serial numbers -/

section Serials

open History

/-- As many numbers as there are serial numbers are distinct, and no more. -/
theorem nodup_serials_iff (serial : UInt) (n : ℕ) :
    ((List.range n).map fun i => serial + Fin.ofNat (2 ^ 32) i).Nodup ↔ n ≤ 2 ^ 32 := by
  constructor
  · intro nodup
    have bound := nodup.length_le_card
    simpa using bound
  · intro bound
    refine List.Nodup.map_on ?_ List.nodup_range
    intro i hi j hj same
    rw [List.mem_range] at hi hj
    have values := congrArg Fin.val same
    simp only [Fin.val_add, Fin.val_ofNat] at values
    omega

/-- The largest serial number is that of an element. -/
theorem largest_mem {elements : List (output_task_element D)} (some : elements ≠ []) :
    output_task.largest elements ∈ elements.map (·.serial) := by
  have run : ∀ (elements : List (output_task_element D)) (serial : UInt),
      serial ≤ elements.foldl (fun serial ele => if ele.serial > serial then ele.serial else serial) serial ∧
      (elements.foldl (fun serial ele => if ele.serial > serial then ele.serial else serial) serial = serial ∨
        elements.foldl (fun serial ele => if ele.serial > serial then ele.serial else serial) serial ∈
          elements.map (·.serial)) := by
    intro elements
    induction elements with
    | nil => exact fun serial => ⟨le_rfl, .inl rfl⟩
    | cons ele elements ih =>
      intro serial
      obtain ⟨above, member⟩ := ih (if ele.serial > serial then ele.serial else serial)
      rw [List.foldl_cons, List.map_cons, List.mem_cons]
      split_ifs at above member ⊢ with larger
      · exact ⟨larger.le.trans above, .inr member⟩
      · exact ⟨above, member.imp id .inr⟩
  obtain ⟨ele, elements, rfl⟩ := List.exists_cons_of_ne_nil some
  obtain ⟨above, member⟩ := run elements ele.serial
  have first : (if ele.serial > 0 then ele.serial else 0) = ele.serial := by
    split_ifs with positive
    · rfl
    · exact (le_antisymm (not_lt.mp positive) (Fin.zero_le _)).symm
  rw [output_task.largest, List.foldl_cons, first, List.map_cons, List.mem_cons]
  exact member

/-- What holds in a history whose steps are clean. -/
structure Numbered (h : History D) : Prop where
  /-- Numbered from zero, up to the counter. -/
  counted : h.reloaded = false → Extends ⟨"", "", [], 0⟩ h.task h.task.elements.length
  /-- The counter is the serial number of an element. -/
  behind : h.reloaded = true → h.task.serial ∈ h.task.elements.map (·.serial)
  nodup : (h.task.elements.map (·.serial)).Nodup

variable {P} {h h' : History D} {op : Operation D}

/-- An operation other than reloading extends the task by what it adds. -/
theorem extends_next (adds : op ≠ .reload) :
    ∃ t, h.next P op = some ⟨t, h.reloaded⟩ ∧ Extends h.task t (h.additions P op).length := by
  cases op with
  | add_element prod tags =>
    have extended := extends_add_task (P := P) (t := h.task) [(prod, tags)]
    rw [output_task.add_task] at extended
    rw [next]
    cases added : h.task.add_element P prod tags with
    | error what =>
      rw [added] at extended
      exact ⟨h.task, rfl, extended⟩
    | ok t =>
      rw [added] at extended
      exact ⟨t, rfl, extended⟩
  | add_task elements => exact ⟨_, rfl, extends_add_task elements⟩
  | reload => exact absurd rfl adds

theorem Extends.length {t t' : output_task D} {n : ℕ} (h : Extends t t' n) :
    t'.elements.length = t.elements.length + n := by
  simpa using congrArg List.length h.serials

theorem Extends.trans {t t' t'' : output_task D} {m n : ℕ} (h : Extends t t' m) (h' : Extends t' t'' n) :
    Extends t t'' (m + n) := by
  have later : ∀ i, t'.serial + Fin.ofNat (2 ^ 32) i = t.serial + Fin.ofNat (2 ^ 32) (m + i) := by
    intro i
    ext
    simp only [h.serial, Fin.val_add, Fin.val_ofNat]
    omega
  constructor
  case serials =>
    rw [h'.serials, h.serials, List.range_add, List.map_append, List.append_assoc, List.map_map]
    simp only [later, Function.comp_def]
  case serial => rw [h'.serial, later]

/-- **Adding** nothing, or to a task that has not been read back, keeps serial numbers distinct, and nothing else
does. -/
theorem nodup_extends_iff (hI : Numbered h) {t : output_task D} {n : ℕ} (ext : Extends h.task t n) :
    (t.elements.map (·.serial)).Nodup ↔ (n ≠ 0 → h.reloaded = false ∧ h.task.elements.length + n ≤ 2 ^ 32) := by
  rcases Nat.eq_zero_or_pos n with rfl | some
  · simpa [ext.serials] using hI.nodup
  cases reloaded : h.reloaded with
  | true =>
    have repeated : ¬ (t.elements.map (·.serial)).Nodup := by
      obtain ⟨n, rfl⟩ := Nat.exists_eq_add_of_lt some
      have zero : h.task.serial + Fin.ofNat (2 ^ 32) 0 = h.task.serial := by simp
      rw [ext.serials, List.nodup_append']
      rintro ⟨-, -, disjoint⟩
      exact disjoint (hI.behind reloaded) (List.mem_map.mpr ⟨0, by simp, zero⟩)
    simpa [some.ne'] using repeated
  | false =>
    have all := (hI.counted reloaded).trans ext
    have serials := all.serials
    rw [List.map_nil, List.nil_append] at serials
    rw [serials, nodup_serials_iff]
    simp [some.ne']

theorem clean_iff (adds : op ≠ .reload) : h.Clean P op ↔ ((h.additions P op).length ≠ 0 →
    h.reloaded = false ∧ h.task.elements.length + (h.additions P op).length ≤ 2 ^ 32) := by
  cases op with
  | reload => exact absurd rfl adds
  | add_element prod tags => simp [Clean]
  | add_task elements => simp [Clean]

theorem next_reload (untagged : ∀ ele ∈ h.task.elements, ele.tags = []) :
    h.next P .reload = some ⟨{ h.task with serial := output_task.largest h.task.elements },
      h.reloaded || !h.task.elements.isEmpty⟩ := by
  simp only [next, reload_of_untagged untagged]

/-- **One operation** persists exactly if it is clean. -/
theorem persists_iff (hI : Numbered h) : h.Persists P op ↔ h.Clean P op := by
  by_cases adds : op = .reload
  · subst adds
    constructor
    · rintro ⟨h', step, -⟩
      rw [next] at step
      split at step
      case h_1 => cases step
      case h_2 t reloaded => exact untagged_of_reload reloaded
    · exact fun untagged => ⟨_, next_reload untagged, hI.nodup, fun _ => rfl⟩
  · obtain ⟨t, step, ext⟩ := extends_next (P := P) (h := h) adds
    have same : h.Persists P op ↔ (t.elements.map (·.serial)).Nodup := by
      simp [Persists, step, adds]
    rw [same, clean_iff adds, nodup_extends_iff hI ext]

theorem numbered_next (hI : Numbered h) (clean : h.Clean P op) (step : h.next P op = some h') : Numbered h' := by
  obtain ⟨h'', step', nodup, -⟩ := (persists_iff hI).mpr clean
  obtain rfl : h' = h'' := Option.some.inj (step.symm.trans step')
  by_cases adds : op = .reload
  · subst adds
    obtain rfl := Option.some.inj (step.symm.trans (next_reload clean))
    by_cases none : h.task.elements = []
    · have fresh : h.reloaded = false := by
        by_contra reloaded
        simpa [none] using hI.behind (Bool.not_eq_false _ ▸ reloaded)
      refine ⟨fun _ => ?_, by simp [fresh, none], nodup⟩
      constructor
      case serials => simp [none]
      case serial => simp [none, output_task.largest]
    · exact ⟨by simp [none], fun _ => largest_mem none, nodup⟩
  · obtain ⟨t, step', ext⟩ := extends_next (P := P) (h := h) adds
    obtain rfl := Option.some.inj (step.symm.trans step')
    refine ⟨fun fresh => ?_, fun reloaded => ?_, nodup⟩
    · rw [ext.length]
      exact (hI.counted fresh).trans ext
    · have none : (h.additions P op).length = 0 := by
        by_contra some
        exact Bool.false_ne_true (((clean_iff adds).mp clean some).1.symm.trans reloaded)
      rw [none] at ext
      rw [ext.serials, ext.serial]
      simpa using hI.behind reloaded

end Serials

theorem Constructed.numbered {t : output_task D} (h : Constructed t) : Numbered ⟨t, false⟩ := by
  cases h with
  | empty name description => exact ⟨fun _ => ⟨rfl, rfl⟩, by simp, .nil⟩
  | single name description prod tags => exact ⟨fun _ => ⟨rfl, rfl⟩, by simp, by simp⟩

/-- **Persistence of output tasks**: every operation of a history persists, with distinct serial numbers, exactly if
every operation is clean. -/
theorem output_task_persists_iff {t : output_task D} (h : Constructed t) (ops : List (Operation D)) :
    System.StepsSatisfy (History.next P) (History.Persists P) ⟨t, false⟩ ops ↔
      System.StepsSatisfy (History.next P) (History.Clean P) ⟨t, false⟩ ops :=
  System.stepsSatisfy_congr (fun _ _ => persists_iff) (fun _ _ _ => numbered_next) h.numbered

/-! ### Two products -/

/-- Two derived products, by their names. -/
def two_products : Products Bool where
  get_name d := if d then "b" else "a"
  get_filename d := if d then "b.pdf" else "a.pdf"
  pfinder name := .ok (name = "b")
  found := by decide

/-- A task with one product is stored, read back, and another product is added: both have the serial number 0. -/
theorem not_persists_after_reload :
    ¬ ∀ (t : output_task Bool) (ops : List (Operation Bool)), Constructed t →
      System.StepsSatisfy (History.next two_products) (History.Persists two_products) ⟨t, false⟩ ops := by
  intro all
  have constructed : Constructed ⟨"plots", "", [⟨false, [], 0⟩], 1⟩ := .single "plots" "" false []
  have untagged : ∀ ele ∈ [(⟨false, [], 0⟩ : output_task_element Bool)], ele.tags = [] := by decide
  have step := next_reload (P := two_products) (h := ⟨⟨"plots", "", [⟨false, [], 0⟩], 1⟩, false⟩) untagged
  have clean : History.Clean two_products ⟨⟨"plots", "", [⟨false, [], 0⟩], 1⟩, false⟩ .reload := untagged
  have numbered := numbered_next constructed.numbered clean step
  have second := ((all _ [.reload, .add_element true []] constructed).2 _ step).1
  exact absurd (((persists_iff numbered).mp second) (by decide)).1 (by decide)

/-- Two products, stored and read back. -/
theorem output_task_persists_two :
    System.StepsSatisfy (History.next two_products) (History.Persists two_products)
      ⟨⟨"plots", "", [⟨false, [], 0⟩], 1⟩, false⟩ [.add_element true [], .reload] := by
  rw [output_task_persists_iff two_products (.single "plots" "" false [])]
  refine ⟨fun _ => ⟨rfl, by decide⟩, fun h' step => ⟨?_, fun _ _ => trivial⟩⟩
  have distinct : ∀ e ∈ [false], History.Distinct two_products e true := by decide
  have untagged : ∀ ele ∈ [(⟨false, [], 0⟩ : output_task_element Bool), ⟨true, [], 1⟩], ele.tags = [] := by decide
  rw [History.next, add_element_of_distinct distinct] at step
  cases step
  exact untagged

end CppTransport.Runtime.OutputTasks
