import CppTransport.Library.Exceptions
import CppTransport.Library.ShiftedErasures
import CppTransport.Library.SortedUnion
import CppTransport.Runtime.ContentRecord
import CppTransport.Runtime.InflightWriters
import Mathlib.Data.String.Basic

/-!
# Updating tags and notes

Tags and notes of content groups are edited from the command line: tags are removed and added, notes are removed by
their numbers and added, in all groups whose name matches. The body of the loop reads the record of a group, changes
it step by step, and commits it again.

## The model

The record is that of `CppTransport.Runtime.ContentRecord`. While it is being changed, each note is followed by the
position at which it was read, so that one can tell which of the notes are left; no function looks at these positions.
Regular expressions and the clock are parameters. The database is the list of its records; nothing is committed if an
exception escapes.

## What is proved

Notes are removed one at a time, so a number counts the notes that are left at its turn, not those that are stored;
and a tag that is there already is entered into the history as if it were added. `updated_iff`: a record is updated as
asked exactly if neither makes a difference.
-/

namespace CppTransport.Runtime.TagsAndNotes

open Library ContentRecord Inflight

def CPPTRANSPORT_REPO_TOOLKIT_IGNORING_LOCKED : String := "Ignoring locked repository object"

variable {ptime Payload : Type}

/-- What the program knows of its surroundings. -/
structure Environment (ptime : Type) where
  userid : String
  /-- The time at which a history of this length is continued. -/
  clock : ℕ → ptime
  regex_match : String → String → Bool

/-- The arguments of a call. -/
structure Arguments where
  tags_add : List String
  tags_remove : List String
  notes_add : List String
  notes_remove : List String

/-- `boost::lexical_cast<unsigned int>`: digits, perhaps after a sign; a negative number wraps around. -/
def lexical_cast (text : String) : Except String ℕ :=
  let magnitude : List Char → Option ℕ := fun digits =>
    if digits ≠ [] ∧ digits.all Char.isDigit then
      let value := digits.foldl (fun value c => 10 * value + (c.toNat - '0'.toNat)) 0
      if value < 2 ^ 32 then some value else none
    else none
  let value :=
    match text.toList with
    | '-' :: digits => (magnitude digits).map fun value => (2 ^ 32 - value) % 2 ^ 32
    | '+' :: digits => magnitude digits
    | digits => magnitude digits
  match value with
  | some value => .ok value
  | none => .error "bad lexical cast: source type value could not be interpreted as target"

/-! ### Records that are being changed -/

/-- A record with write access. -/
structure rw_record (ptime Payload : Type) where
  record : content_group_record ptime Payload
  /-- Its notes, with the positions at which they were read; none for those that have been added. -/
  notes : List (note ptime × Option ℕ)

/-- `get_rw_content_group`. -/
def get_rw_content_group (r : content_group_record ptime Payload) : rw_record ptime Payload :=
  ⟨r, r.notes.zipIdx.map fun n => (n.1, some n.2)⟩

namespace rw_record

/-- `commit`: what is stored. -/
def commit (r : rw_record ptime Payload) : content_group_record ptime Payload :=
  { r.record with notes := r.notes.map (·.1) }

variable (env : Environment ptime)

/-- `add_history_item` and `update_last_edit_time`. -/
def add_history_item (r : rw_record ptime Payload) (action : history_actions) (info : String) :
    rw_record ptime Payload :=
  let now := env.clock r.record.metadata.history.length
  { r with
    record := { r.record with
      metadata := { r.record.metadata with
        history := r.record.metadata.history ++ [⟨env.userid, action, info, now⟩]
        last_edit_time := now } } }

def add_note (r : rw_record ptime Payload) (note : String) : rw_record ptime Payload :=
  let now := env.clock r.record.metadata.history.length
  add_history_item env { r with notes := r.notes ++ [(⟨env.userid, note, now⟩, none)] } .add_note ""

def add_tag (r : rw_record ptime Payload) (tag : String) : rw_record ptime Payload :=
  add_history_item env { r with record := { r.record with tags := sort_unique (r.record.tags ++ [tag]) } } .add_tag tag

def remove_tag (r : rw_record ptime Payload) (tag : String) : rw_record ptime Payload :=
  if tag ∈ r.record.tags then
    add_history_item env { r with record := { r.record with tags := r.record.tags.erase tag } } .remove_tag tag
  else r

def remove_note (r : rw_record ptime Payload) (number : ℕ) : rw_record ptime Payload :=
  if number < r.notes.length then
    add_history_item env { r with notes := r.notes.eraseIdx number } .remove_note ""
  else r

/-- What is done to a record that is not locked. -/
def update (a : Arguments) (r : rw_record ptime Payload) : Except String (rw_record ptime Payload) := do
  let r := a.tags_remove.foldl (remove_tag env) r
  let r := a.tags_add.foldl (add_tag env) r
  let r ← a.notes_remove.foldlM (fun r note => do return remove_note env r (← lexical_cast note)) r
  return a.notes_add.foldl (add_note env) r

end rw_record

/-! ### The loops over records and objects -/

/-- `check_match`, for exact matches. -/
def check_match (env : Environment ptime) (s e : String) : Bool :=
  if e.toList.head? = some '{' ∧ e.toList.getLast? = some '}' then
    env.regex_match s (String.ofList (e.toList.drop 1).dropLast)
  else s == e

/-- What comes of a call. -/
structure Outcome (ptime Payload : Type) where
  db : List (content_group_record ptime Payload)
  /-- The objects, and whether they have been found. -/
  items : List (String × Bool)
  messages : List String
  /-- Each record that was read with write access, and how it was committed. -/
  commits : List (content_group_record ptime Payload × rw_record ptime Payload)

/-- The objects one after the other, for one record. -/
def update_matches (env : Environment ptime) (a : Arguments) (r : content_group_record ptime Payload) :
    List (String × Bool) → Except String (content_group_record ptime Payload × Outcome ptime Payload)
  | [] => .ok (r, ⟨[], [], [], []⟩)
  | (e, found) :: items =>
    if check_match env r.name e then
      if r.locked then do
        let (r', out) ← update_matches env a r items
        .ok (r', { out with
          items := (e, true) :: out.items
          messages := (CPPTRANSPORT_REPO_TOOLKIT_IGNORING_LOCKED ++ " '" ++ r.name ++ "'") :: out.messages })
      else do
        let rw ← rw_record.update env a (get_rw_content_group r)
        let (r', out) ← update_matches env a rw.commit items
        .ok (r', { out with
          items := (e, true) :: out.items
          commits := (r, rw) :: out.commits })
    else do
      let (r', out) ← update_matches env a r items
      .ok (r', { out with items := (e, found) :: out.items })

/-- `update_tags_notes` for one of the databases. -/
def update_tags_notes (env : Environment ptime) (a : Arguments) :
    List (content_group_record ptime Payload) → List (String × Bool) → Except String (Outcome ptime Payload)
  | [], items => .ok ⟨[], items, [], []⟩
  | r :: db, items => do
    let (r', first) ← update_matches env a r items
    let rest ← update_tags_notes env a db first.items
    .ok ⟨r' :: rest.db, rest.items, first.messages ++ rest.messages, first.commits ++ rest.commits⟩

/-! ### What is asked -/

/-- The changes that a call asks for, with what the history says of each. -/
def changes (a : Arguments) (indices : List ℕ) (r : content_group_record ptime Payload) :
    List (history_actions × String) :=
  (a.tags_remove.dedup.filter (· ∈ r.tags)).map (.remove_tag, ·) ++
    (a.tags_add.dedup.filter fun tag => ¬ (tag ∈ r.tags ∧ tag ∉ a.tags_remove)).map (.add_tag, ·) ++
    ((r.notes.zipIdx.filter fun n => n.2 ∈ indices).map fun _ => (.remove_note, "")) ++
    a.notes_add.map fun _ => (.add_note, "")

/-- The history goes on with these. -/
def Continues (r r' : rw_record ptime Payload) (changes : List (history_actions × String)) : Prop :=
  ∃ entries : List (metadata_history ptime), r'.record.metadata.history = r.record.metadata.history ++ entries ∧
    (entries.map fun e => (e.action, e.info)) = changes

/-- A record is updated as asked: the notes with the given indices are gone, and no others. -/
structure Updated (env : Environment ptime) (a : Arguments) (indices : List ℕ)
    (r : content_group_record ptime Payload) (rw : rw_record ptime Payload) : Prop where
  notes : ∃ added : List (note ptime), added.map (·.text) = a.notes_add ∧ (∀ n ∈ added, n.uid = env.userid) ∧
    rw.notes = ((r.notes.zipIdx.filter fun n => n.2 ∉ indices).map fun n => (n.1, some n.2)) ++
      added.map fun n => (n, none)
  tags : ∀ tag, tag ∈ rw.record.tags ↔ tag ∈ r.tags ∧ tag ∉ a.tags_remove ∨ tag ∈ a.tags_add
  /-- One entry for each change. -/
  history : ∃ made, Continues (get_rw_content_group r) rw made ∧ made.Perm (changes a indices r)

/-- What makes no difference: indices that stand for stored indices which are listed too, and tags that are not there
when they are added. -/
structure Undisturbed (a : Arguments) (indices : List ℕ) (r : content_group_record ptime Payload) : Prop where
  notes : ∀ i < r.notes.length, i ∈ erasures r.notes.length [] indices ↔ i ∈ indices
  tags : a.tags_add.Nodup ∧ ∀ tag ∈ a.tags_add, tag ∈ r.tags → tag ∈ a.tags_remove

/-! ### Steps -/

section Steps

variable (env : Environment ptime) {r r' r'' : rw_record ptime Payload} {l l' : List (history_actions × String)}

theorem Continues.refl (r : rw_record ptime Payload) : Continues r r [] := ⟨[], by simp, rfl⟩

theorem Continues.trans (h : Continues r r' l) (h' : Continues r' r'' l') : Continues r r'' (l ++ l') := by
  obtain ⟨entries, history, rfl⟩ := h
  obtain ⟨entries', history', rfl⟩ := h'
  exact ⟨entries ++ entries', by rw [history', history, List.append_assoc], List.map_append⟩

open rw_record

/-- A change of tags or notes, with its entry. -/
theorem continues_add_history_item {action : history_actions} {info : String}
    (same : r'.record.metadata = r.record.metadata) :
    Continues r (add_history_item env r' action info) [(action, info)] :=
  ⟨[⟨env.userid, action, info, _⟩], by rw [← same]; rfl, rfl⟩

/-- The tags that are there when they are removed. -/
def erased : List String → List String → List String
  | _, [] => []
  | tags, tag :: remove => if tag ∈ tags then tag :: erased (tags.erase tag) remove else erased tags remove

theorem mem_erased {tags remove : List String} (nodup : tags.Nodup) {tag : String} :
    tag ∈ erased tags remove ↔ tag ∈ remove ∧ tag ∈ tags := by
  induction remove generalizing tags with
  | nil => simp [erased]
  | cons first remove ih =>
    rw [erased]
    split_ifs with present
    · rw [List.mem_cons, ih (nodup.erase first), nodup.mem_erase_iff, List.mem_cons]
      by_cases same : tag = first
      · simp [same, present]
      · simp [same]
    · rw [ih nodup, List.mem_cons]
      have absent : tag ∈ tags → tag ≠ first := fun ht same => present (same ▸ ht)
      tauto

theorem nodup_erased {tags remove : List String} (nodup : tags.Nodup) : (erased tags remove).Nodup := by
  induction remove generalizing tags with
  | nil => exact .nil
  | cons first remove ih =>
    rw [erased]
    split_ifs with present
    · refine List.nodup_cons.mpr ⟨fun again => ?_, ih (nodup.erase first)⟩
      exact nodup.not_mem_erase ((mem_erased (nodup.erase first)).mp again).2
    · exact ih nodup

/-- **Removing tags**. -/
theorem remove_tags_spec (remove : List String) (r : rw_record ptime Payload) :
    (remove.foldl (remove_tag env) r).notes = r.notes ∧
    (remove.foldl (remove_tag env) r).record.tags = r.record.tags.diff remove ∧
    Continues r (remove.foldl (remove_tag env) r) ((erased r.record.tags remove).map (.remove_tag, ·)) := by
  induction remove generalizing r with
  | nil => exact ⟨rfl, rfl, .refl r⟩
  | cons tag remove ih =>
    obtain ⟨notes, tags, continues⟩ := ih (remove_tag env r tag)
    rw [List.foldl_cons, List.diff_cons, erased, notes, tags]
    by_cases present : tag ∈ r.record.tags
    · have step : remove_tag env r tag = add_history_item env
          { r with record := { r.record with tags := r.record.tags.erase tag } } .remove_tag tag := if_pos present
      rw [step] at continues ⊢
      rw [if_pos present]
      exact ⟨rfl, rfl, (continues_add_history_item env rfl).trans continues⟩
    · have step : remove_tag env r tag = r := if_neg present
      rw [step] at continues ⊢
      rw [if_neg present, List.erase_of_not_mem present]
      exact ⟨rfl, rfl, continues⟩

theorem mem_sort_unique {tag : String} {tags : List String} : tag ∈ sort_unique tags ↔ tag ∈ tags := by
  have dropped : tag ∈ sort_unique tags ↔ tag ∈ tags.mergeSort fun a b => a ≤ b := by
    rw [sort_unique]
    convert mem_destutter_ne
  rw [dropped, List.mem_mergeSort]

/-- **Adding tags**. -/
theorem add_tags_spec (add : List String) (r : rw_record ptime Payload) :
    (add.foldl (add_tag env) r).notes = r.notes ∧
    (∀ tag, tag ∈ (add.foldl (add_tag env) r).record.tags ↔ tag ∈ r.record.tags ∨ tag ∈ add) ∧
    Continues r (add.foldl (add_tag env) r) (add.map (.add_tag, ·)) := by
  induction add generalizing r with
  | nil => exact ⟨rfl, by simp, .refl r⟩
  | cons first add ih =>
    obtain ⟨notes, tags, continues⟩ := ih (add_tag env r first)
    refine ⟨notes, fun tag => ?_, ?_⟩
    · have here : tag ∈ (add_tag env r first).record.tags ↔ tag ∈ r.record.tags ∨ tag = first := by
        simp [add_tag, add_history_item, mem_sort_unique]
      rw [List.foldl_cons, tags, here, List.mem_cons, or_assoc]
    · exact (continues_add_history_item env rfl).trans continues

theorem nodup_sort_unique (tags : List String) : (sort_unique tags).Nodup := by
  have sorted : (sort_unique tags).Pairwise (· ≤ ·) :=
    (List.pairwise_mergeSort' (· ≤ ·) tags).sublist (List.destutter_sublist _ _)
  exact (pairwise_lt_of_isChain_ne sorted (List.isChain_destutter _ _)).imp ne_of_lt

theorem nodup_add_tags (add : List String) (r : rw_record ptime Payload) (nodup : r.record.tags.Nodup) :
    (add.foldl (add_tag env) r).record.tags.Nodup := by
  induction add generalizing r with
  | nil => exact nodup
  | cons tag add ih => exact ih (add_tag env r tag) (nodup_sort_unique _)

/-- **Removing notes**, one at a time. -/
theorem remove_notes_spec (indices : List ℕ) (r : rw_record ptime Payload) :
    (indices.foldl (remove_note env) r).notes = indices.foldl List.eraseIdx r.notes ∧
    (indices.foldl (remove_note env) r).record.tags = r.record.tags ∧
    ∃ n, n + (indices.foldl List.eraseIdx r.notes).length = r.notes.length ∧
      Continues r (indices.foldl (remove_note env) r) (List.replicate n (.remove_note, "")) := by
  induction indices generalizing r with
  | nil => exact ⟨rfl, rfl, 0, by simp, .refl r⟩
  | cons i indices ih =>
    obtain ⟨notes, tags, n, count, continues⟩ := ih (remove_note env r i)
    rw [List.foldl_cons, List.foldl_cons, notes, tags]
    by_cases inside : i < r.notes.length
    · have step : remove_note env r i =
          add_history_item env { r with notes := r.notes.eraseIdx i } .remove_note "" := if_pos inside
      rw [step] at continues count ⊢
      have shorter : (r.notes.eraseIdx i).length + 1 = r.notes.length := List.length_eraseIdx_add_one inside
      have count : n + (indices.foldl List.eraseIdx (r.notes.eraseIdx i)).length = (r.notes.eraseIdx i).length := count
      refine ⟨rfl, rfl, n + 1, ?_, ?_⟩
      · show n + 1 + (indices.foldl List.eraseIdx (r.notes.eraseIdx i)).length = _
        omega
      · exact (continues_add_history_item env rfl).trans continues
    · have step : remove_note env r i = r := if_neg inside
      rw [step] at continues count ⊢
      rw [List.eraseIdx_of_length_le (Nat.not_lt.mp inside)]
      exact ⟨rfl, rfl, n, count, continues⟩

/-- **Adding notes**. -/
theorem add_notes_spec (add : List String) (r : rw_record ptime Payload) :
    (add.foldl (add_note env) r).record.tags = r.record.tags ∧
    (∃ added : List (note ptime), added.map (·.text) = add ∧ (∀ n ∈ added, n.uid = env.userid) ∧
      (add.foldl (add_note env) r).notes = r.notes ++ added.map fun n => (n, none)) ∧
    Continues r (add.foldl (add_note env) r) (add.map fun _ => (.add_note, "")) := by
  induction add generalizing r with
  | nil => exact ⟨rfl, ⟨[], rfl, by simp, by simp⟩, .refl r⟩
  | cons text add ih =>
    obtain ⟨tags, ⟨added, texts, uids, notes⟩, continues⟩ := ih (add_note env r text)
    refine ⟨tags, ⟨⟨env.userid, text, env.clock r.record.metadata.history.length⟩ :: added, ?_, ?_, ?_⟩, ?_⟩
    · rw [List.map_cons, texts]
    · exact List.forall_mem_cons.mpr ⟨rfl, uids⟩
    · rw [List.foldl_cons, notes]
      simp [add_note, add_history_item]
    · exact (continues_add_history_item env rfl).trans continues

end Steps

/-! ### One record -/

section Record

variable {env : Environment ptime} {a : Arguments} {indices : List ℕ} {r : content_group_record ptime Payload}
  {rw : rw_record ptime Payload}

open rw_record

/-- A loop whose rounds convert their element first. -/
theorem foldlM_lexical_cast {texts : List String} (cast : texts.mapM lexical_cast = .ok indices)
    (x : rw_record ptime Payload) :
    texts.foldlM (fun r text => do return remove_note env r (← lexical_cast text)) x =
      .ok (indices.foldl (remove_note env) x) := by
  induction texts generalizing indices x with
  | nil =>
    cases cast
    rfl
  | cons text texts ih =>
    rw [List.mapM_cons] at cast
    obtain ⟨i, first, rest⟩ := bind_eq_ok.mp cast
    obtain ⟨is, later, last⟩ := bind_eq_ok.mp rest
    cases last
    rw [List.foldlM_cons, first]
    exact ih later _

/-- A note with its stored index. -/
def stored (n : note ptime × ℕ) : note ptime × Option ℕ := (n.1, some n.2)

/-- What becomes of a record. -/
structure Result (env : Environment ptime) (a : Arguments) (indices : List ℕ)
    (r : content_group_record ptime Payload) (rw : rw_record ptime Payload) : Prop where
  notes : ∃ added : List (note ptime), added.map (·.text) = a.notes_add ∧ (∀ n ∈ added, n.uid = env.userid) ∧
    rw.notes = ((r.notes.zipIdx.filter fun n => n.2 ∉ erasures r.notes.length [] indices).map
      fun n => (n.1, some n.2)) ++ added.map fun n => (n, none)
  tags : ∀ tag, tag ∈ rw.record.tags ↔ tag ∈ r.tags.diff a.tags_remove ∨ tag ∈ a.tags_add
  /-- Tags stay without repetition. -/
  nodup : r.tags.Nodup → rw.record.tags.Nodup
  history : ∃ n, n + (r.notes.zipIdx.filter fun n => n.2 ∉ erasures r.notes.length [] indices).length = r.notes.length ∧
    Continues (get_rw_content_group r) rw ((erased r.tags a.tags_remove).map (.remove_tag, ·) ++
      a.tags_add.map (.add_tag, ·) ++ List.replicate n (.remove_note, "") ++ a.notes_add.map fun _ => (.add_note, ""))

theorem update_result (cast : a.notes_remove.mapM lexical_cast = .ok indices)
    (h : update env a (get_rw_content_group r) = .ok rw) : Result env a indices r rw := by
  obtain ⟨notes₁, tags₁, continues₁⟩ := remove_tags_spec env a.tags_remove (get_rw_content_group r)
  rw [update, foldlM_lexical_cast cast] at h
  cases h
  generalize a.tags_remove.foldl (remove_tag env) (get_rw_content_group r) = r₁ at notes₁ tags₁ continues₁ ⊢
  obtain ⟨notes₂, tags₂, continues₂⟩ := add_tags_spec env a.tags_add r₁
  have nodup₂ := nodup_add_tags env a.tags_add r₁
  generalize a.tags_add.foldl (add_tag env) r₁ = r₂ at notes₂ tags₂ continues₂ nodup₂ ⊢
  obtain ⟨notes₃, tags₃, n, count, continues₃⟩ := remove_notes_spec env indices r₂
  generalize indices.foldl (remove_note env) r₂ = r₃ at notes₃ tags₃ continues₃ ⊢
  obtain ⟨tags₄, ⟨added, texts, uids, notes₄⟩, continues₄⟩ := add_notes_spec env a.notes_add r₃
  have read : r₂.notes = r.notes.zipIdx.map fun n => (n.1, some n.2) := notes₂.trans notes₁
  have left : indices.foldl List.eraseIdx r₂.notes =
      (r.notes.zipIdx.filter fun n => n.2 ∉ erasures r.notes.length [] indices).map fun n => (n.1, some n.2) := by
    rw [read, ← map_foldl_eraseIdx, foldl_eraseIdx_zipIdx]
  constructor
  case notes => exact ⟨added, texts, uids, by rw [notes₄, notes₃, left]⟩
  case tags =>
    intro tag
    rw [tags₄, tags₃, tags₂, tags₁]
    rfl
  case nodup =>
    intro nodup
    rw [tags₄, tags₃]
    refine nodup₂ ?_
    rw [tags₁]
    exact nodup.diff
  case history =>
    refine ⟨n, ?_, ((continues₁.trans continues₂).trans continues₃).trans continues₄⟩
    rw [left, read] at count
    simpa using count

/-- Numbers do not keep a record from being updated. -/
theorem exists_update (env : Environment ptime) (r : content_group_record ptime Payload)
    (cast : a.notes_remove.mapM lexical_cast = .ok indices) : ∃ rw, update env a (get_rw_content_group r) = .ok rw := by
  rw [update, foldlM_lexical_cast cast]
  exact ⟨_, rfl⟩

/-- The notes that are left are told from those that are added. -/
theorem stored_append_inj {l l' : List (note ptime × ℕ)} {added added' : List (note ptime)}
    (same : l.map stored ++ added.map (fun n => (n, none)) = l'.map stored ++ added'.map fun n => (n, none)) :
    l = l' := by
  let read (n : note ptime × Option ℕ) : Option (note ptime × ℕ) := n.2.map fun i => (n.1, i)
  have left : ∀ (l : List (note ptime × ℕ)) (added : List (note ptime)),
      (l.map stored ++ added.map fun n => (n, none)).filterMap read = l := by
    intro l added
    have reads : ∀ n, read (stored n) = some n := fun _ => rfl
    have skips : ∀ n, read (n, none) = none := fun _ => rfl
    simp [List.filterMap_append, List.filterMap_map, reads, skips]
  rw [← left l added, same, left]

theorem continues_unique {x y : rw_record ptime Payload} {l l' : List (history_actions × String)}
    (h : Continues x y l) (h' : Continues x y l') : l = l' := by
  obtain ⟨entries, history, rfl⟩ := h
  obtain ⟨entries', history', rfl⟩ := h'
  rw [List.append_cancel_left (history.symm.trans history')]

/-- There are as many entries for added tags as there are tags to add, if none of them was there. -/
theorem length_added_tags_iff (add : List String) (there : String → Prop) [DecidablePred there] :
    (add.dedup.filter fun tag => ¬ there tag).length = add.length ↔ add.Nodup ∧ ∀ tag ∈ add, ¬ there tag := by
  have sub : List.Sublist (add.dedup.filter fun tag => ¬ there tag) add :=
    List.filter_sublist.trans (List.dedup_sublist add)
  constructor
  · intro same
    have all := sub.eq_of_length same
    rw [← all]
    refine ⟨(List.nodup_dedup add).filter _, fun tag ht => ?_⟩
    simpa using (List.mem_filter.mp ht).2
  · rintro ⟨nodup, absent⟩
    rw [nodup.dedup, List.filter_eq_self.mpr fun tag ht => by simpa using absent tag ht]

theorem perm_erased {tags remove : List String} (nodup : tags.Nodup) :
    (erased tags remove).Perm (remove.dedup.filter (· ∈ tags)) := by
  rw [List.perm_ext_iff_of_nodup (nodup_erased nodup) ((List.nodup_dedup remove).filter _)]
  intro tag
  simp [mem_erased nodup]

/-- What is left and what is gone. -/
theorem count_removed {n : ℕ} (agree : ∀ i < r.notes.length, i ∈ erasures r.notes.length [] indices ↔ i ∈ indices)
    (count : n + (r.notes.zipIdx.filter fun n => n.2 ∉ erasures r.notes.length [] indices).length = r.notes.length) :
    (r.notes.zipIdx.filter fun n => n.2 ∈ indices).length = n := by
  rw [(filter_zipIdx_eq_iff r.notes).mpr agree] at count
  have all := List.length_eq_length_filter_add (l := r.notes.zipIdx) fun n => decide (n.2 ∈ indices)
  simp only [List.length_zipIdx] at all
  simp only [← decide_not] at all
  omega

/-- **One record** is updated as asked exactly if it is not disturbed. -/
theorem updated_iff_undisturbed (nodup : r.tags.Nodup) (result : Result env a indices r rw) :
    Updated env a indices r rw ↔ Undisturbed a indices r := by
  obtain ⟨added, texts, uids, notes⟩ := result.notes
  obtain ⟨n, count, continues⟩ := result.history
  have there : (∀ tag ∈ a.tags_add, ¬ (tag ∈ r.tags ∧ tag ∉ a.tags_remove)) ↔
      ∀ tag ∈ a.tags_add, tag ∈ r.tags → tag ∈ a.tags_remove := by
    simp only [not_and, not_not]
  constructor
  · intro h
    obtain ⟨added', -, -, asked⟩ := h.notes
    have agree := (filter_zipIdx_eq_iff r.notes).mp (stored_append_inj (notes.symm.trans asked))
    refine ⟨agree, ?_⟩
    obtain ⟨made, continues', perm⟩ := h.history
    obtain rfl := continues_unique continues continues'
    have lengths := perm.length_eq
    have gone := count_removed agree count
    have tags := (perm_erased nodup : (erased r.tags a.tags_remove).Perm _).length_eq
    simp only [changes, List.length_append, List.length_map, List.length_replicate] at lengths
    rw [← there, ← length_added_tags_iff]
    omega
  · intro h
    refine ⟨⟨added, texts, uids, ?_⟩, fun tag => ?_, ⟨_, continues, ?_⟩⟩
    · rw [notes, (filter_zipIdx_eq_iff r.notes).mpr h.notes]
    · rw [result.tags, nodup.mem_sdiff_iff]
    · have gone := count_removed h.notes count
      have all : (a.tags_add.dedup.filter fun tag => ¬ (tag ∈ r.tags ∧ tag ∉ a.tags_remove)) = a.tags_add := by
        rw [h.tags.1.dedup, List.filter_eq_self.mpr fun tag ht => decide_eq_true (there.mpr h.tags.2 tag ht)]
      have removed : ((r.notes.zipIdx.filter fun n => n.2 ∈ indices).map fun _ => (history_actions.remove_note, "")) =
          List.replicate n (.remove_note, "") := by rw [List.map_const', gone]
      rw [changes, all, removed]
      exact ((((perm_erased nodup).map _).append_right _).append_right _).append_right _

end Record

/-! ### Calls -/

theorem update_of_mem_commits {env : Environment ptime} {a : Arguments} {r : content_group_record ptime Payload}
    {items : List (String × Bool)} {out : content_group_record ptime Payload × Outcome ptime Payload}
    (h : update_matches env a r items = .ok out) {c : content_group_record ptime Payload × rw_record ptime Payload}
    (hc : c ∈ out.2.commits) : rw_record.update env a (get_rw_content_group c.1) = .ok c.2 := by
  fun_induction update_matches generalizing out with
  | case1 =>
    cases h
    cases hc
  | case2 r e found items hit locked ih =>
    obtain ⟨⟨r', rest⟩, later, last⟩ := bind_eq_ok.mp h
    cases last
    exact ih later hc
  | case3 r e found items hit unlocked ih =>
    obtain ⟨rw, updated, rest⟩ := bind_eq_ok.mp h
    obtain ⟨⟨r', rest⟩, later, last⟩ := bind_eq_ok.mp rest
    cases last
    rcases List.mem_cons.mp hc with rfl | hc
    · exact updated
    · exact ih rw later hc
  | case4 r e found items miss ih =>
    obtain ⟨⟨r', rest⟩, later, last⟩ := bind_eq_ok.mp h
    cases last
    exact ih later hc

theorem update_of_mem_all_commits {env : Environment ptime} {a : Arguments}
    {db : List (content_group_record ptime Payload)} {items : List (String × Bool)} {out : Outcome ptime Payload}
    (h : update_tags_notes env a db items = .ok out) {c : content_group_record ptime Payload × rw_record ptime Payload}
    (hc : c ∈ out.commits) : rw_record.update env a (get_rw_content_group c.1) = .ok c.2 := by
  induction db generalizing items out with
  | nil =>
    cases h
    cases hc
  | cons r db ih =>
    obtain ⟨⟨r', first⟩, here, rest⟩ := bind_eq_ok.mp h
    obtain ⟨others, later, last⟩ := bind_eq_ok.mp rest
    cases last
    rcases List.mem_append.mp hc with hc | hc
    · exact update_of_mem_commits here hc
    · exact ih later hc

/-- Nothing is matched as a regular expression. -/
def quiet : Environment ℕ where
  userid := "user"
  clock n := n
  regex_match _ _ := false

def three_notes : content_group_record ℕ Unit where
  name := "group"
  metadata := ⟨0, 0, 0, []⟩
  payload := ()
  task := "task"
  locked := false
  notes := [⟨"user", "a", 0⟩, ⟨"user", "b", 0⟩, ⟨"user", "c", 0⟩]
  tags := []
  root := ""
  output := ""

theorem no_tags : three_notes.tags.Nodup := .nil

theorem commits_three_notes {a : Arguments} {rw : rw_record ℕ Unit}
    (h : rw_record.update quiet a (get_rw_content_group three_notes) = .ok rw) :
    ∃ out, update_tags_notes quiet a [three_notes] [("group", false)] = .ok out ∧ (three_notes, rw) ∈ out.commits := by
  have hit : check_match quiet three_notes.name "group" = true := by decide
  have open_record : three_notes.locked = false := rfl
  have first : update_matches quiet a three_notes [("group", false)] =
      .ok (rw.commit, ⟨[], [("group", true)], [], [(three_notes, rw)]⟩) := by
    simp only [update_matches, hit, open_record, h, if_true, Bool.false_eq_true, if_false]
    rfl
  rw [update_tags_notes, first]
  exact ⟨_, rfl, List.mem_cons_self⟩

end CppTransport.Runtime.TagsAndNotes
