import Mathlib.Data.List.Basic
import Mathlib.Data.UInt

/-!
# Output buffers

The translator writes its output through a `buffer`: lines are inserted at the end, or at a tag in
the middle that can be moved to the end. A buffer that is connected to a file has a capacity, and
writes lines from its front to the file as soon as the lines it holds are longer in total.

## The model

The list of lines with an iterator to one of its elements, the tag, is a zipper: the lines before
the element (`front`), the element (`tagged`) and those after it (`back`). The tag points to a line
of its own that holds `BUFFER_MAGIC_TAG`. `size` and `capacity` are `unsigned`. A string is a list
of characters, one byte each. The file is what has been written to it, and writing does not fail.
`merge`, `inherit_decoration` and `print_lines` are left out.

## What is proved

`output_eq`: whatever the capacity, the file has at the end the lines that a buffer in memory, which
writes none of them early, would hold. `faithful_of_fits`: if the lines held are never longer in total
than an `unsigned` can count, then `size` is their total length in every state. Once they are,
`size` wraps around (`size_write_lines`).
-/

namespace CppTransport.Translator.FileBuffer

def BUFFER_MAGIC_TAG : String := "MAGIC_TAG"

def NEWLINE_CHAR : Char := '\n'

/-- What is put to the left and to the right of each line. -/
structure delimiter where
  left : String
  right : String
deriving DecidableEq, Repr

/-- A buffer. -/
structure buffer where
  /-- Is the buffer not connected to a file? -/
  in_memory : Bool
  /-- Current size. -/
  size : UInt32 := 0
  /-- Capacity, if there is a file. -/
  capacity : UInt32
  /-- The lines in the file. -/
  out_stream : List String := []
  /-- The lines before the tag. -/
  front : List String := []
  /-- The line at the tag. -/
  tagged : String := BUFFER_MAGIC_TAG
  /-- The lines after the tag. -/
  back : List String := []
  /-- Delimiters, the latest last. -/
  delimiters : List delimiter := []
  /-- Flags to skip blank lines, the latest first. -/
  skips : List Bool := []
deriving DecidableEq, Repr

/-- Where a line is inserted. -/
inductive insertion_point where
  /-- At the end of the buffer. -/
  | buf_end
  /-- Just before the tag. -/
  | tag
deriving DecidableEq, Repr

namespace buffer

/-- A buffer with an output file. -/
def file (capacity : UInt32) : buffer where
  in_memory := false
  capacity := capacity

/-- A buffer that is held in memory. -/
def memory : buffer where
  in_memory := true
  capacity := 0

/-- Break a string into lines. -/
def split (line : String) : List String := (line.toList.splitOn NEWLINE_CHAR).map String.ofList

variable (b : buffer)

/-- Add delimiters to a line. -/
def delimit_line (item : String) : String :=
  b.delimiters.foldl (fun item dlmt => dlmt.left ++ item ++ dlmt.right) item

/-- Insert a line, and increase the size accordingly. -/
def insert (point : insertion_point) (str : String) : buffer :=
  match point with
  | .buf_end => { b with back := b.back ++ [str], size := b.size + .ofNat str.length }
  | .tag => { b with front := b.front ++ [str], size := b.size + .ofNat str.length }

/-- Are blank lines skipped? -/
def skip : Bool := b.skips.head?.getD false

/-- One round of the loop over the lines to be written. -/
def write_line (point : insertion_point) (str : String) : buffer :=
  if b.skip && str.length == 0 then b else b.insert point (b.delimit_line str)

/-- Write lines from the front to the file while the buffer is over capacity. The loop ends at the tag: its counter is the
number of lines removed. -/
def emit (b : buffer) : List String → buffer
  | [] => { b with front := [] }
  | line :: front =>
    if b.size > b.capacity then
      emit { b with out_stream := b.out_stream ++ [line], size := b.size - .ofNat line.length } front
    else { b with front := line :: front }

/-- Write lines at an insertion point. -/
def write (line : String) (point : insertion_point) : buffer :=
  let b := (split line).foldl (fun b str => b.write_line point str) b
  if b.in_memory then b else b.emit b.front

/-- Write a line to the end of the buffer. -/
def write_to_end (line : String) : buffer := b.write line .buf_end

/-- Write a line at the current tag. -/
def write_to_tag (line : String) : buffer := b.write line .tag

/-- The lines, without the blank placeholder line. -/
def untagged : List String :=
  if b.tagged = BUFFER_MAGIC_TAG then b.front ++ b.back else b.front ++ b.tagged :: b.back

/-- Reset the position of the tag to the end of the buffer. -/
def set_tag_to_end : buffer :=
  { b with front := b.untagged, tagged := BUFFER_MAGIC_TAG, back := [] }

def push_delimiter (left right : String) : buffer :=
  { b with delimiters := b.delimiters ++ [⟨left, right⟩] }

def pop_delimiter : buffer := { b with delimiters := b.delimiters.dropLast }

def push_skip_blank (skip : Bool) : buffer := { b with skips := skip :: b.skips }

def pop_skip_blank : buffer := { b with skips := b.skips.tail }

/-- What the file holds once the buffer has been destroyed. -/
def destroy : List String :=
  if b.in_memory then b.out_stream else b.out_stream ++ b.untagged

end buffer

/-- An operation on a buffer. -/
inductive Op where
  | write_to_end (line : String)
  | write_to_tag (line : String)
  | set_tag_to_end
  | push_delimiter (left right : String)
  | pop_delimiter
  | push_skip_blank (skip : Bool)
  | pop_skip_blank
deriving DecidableEq, Repr

/-- Perform an operation. -/
def buffer.perform (b : buffer) : Op → buffer
  | .write_to_end line => b.write_to_end line
  | .write_to_tag line => b.write_to_tag line
  | .set_tag_to_end => b.set_tag_to_end
  | .push_delimiter left right => b.push_delimiter left right
  | .pop_delimiter => b.pop_delimiter
  | .push_skip_blank skip => b.push_skip_blank skip
  | .pop_skip_blank => b.pop_skip_blank

/-- Perform operations one after another. -/
def buffer.run (b : buffer) (ops : List Op) : buffer := ops.foldl perform b

/-! ### The lines that are written -/

/-- One buffer has written to its file some of the lines before the tag that the other holds. Otherwise they are the
same. -/
structure Drained (b u : buffer) : Prop where
  on_file : b.in_memory = false
  in_memory : u.in_memory = true
  tagged : b.tagged = BUFFER_MAGIC_TAG
  tagged_memory : u.tagged = BUFFER_MAGIC_TAG
  front : b.out_stream ++ b.front = u.front
  back : b.back = u.back
  delimiters : b.delimiters = u.delimiters
  skips : b.skips = u.skips

namespace Drained

variable {b u : buffer}

theorem start (capacity : UInt32) : Drained (.file capacity) .memory :=
  ⟨rfl, rfl, rfl, rfl, rfl, rfl, rfl, rfl⟩

/-- A line is inserted at the same place in both. -/
theorem insert (h : Drained b u) (point : insertion_point) (str : String) :
    Drained (b.insert point str) (u.insert point str) := by
  cases point with
  | buf_end => exact { h with back := congrArg (· ++ [str]) h.back }
  | tag =>
    refine { h with front := ?_ }
    rw [buffer.insert, buffer.insert, ← h.front, List.append_assoc]

theorem write_line (h : Drained b u) (point : insertion_point) (str : String) :
    Drained (b.write_line point str) (u.write_line point str) := by
  have hskip : b.skip = u.skip := by rw [buffer.skip, buffer.skip, h.skips]
  have hdelimit : b.delimit_line str = u.delimit_line str := by
    rw [buffer.delimit_line, buffer.delimit_line, h.delimiters]
  rw [buffer.write_line, buffer.write_line, hskip, hdelimit]
  split
  · exact h
  · exact h.insert point _

theorem write_lines (h : Drained b u) (point : insertion_point) (lines : List String) :
    Drained (lines.foldl (fun b str => b.write_line point str) b)
      (lines.foldl (fun u str => u.write_line point str) u) := by
  induction lines generalizing b u with
  | nil => exact h
  | cons str lines ih => exact ih (h.write_line point str)

/-- The loop that writes to the file moves lines from before the tag, in order. -/
theorem emit {l : List String} (h : Drained { b with front := l } u) : Drained (b.emit l) u := by
  induction l generalizing b with
  | nil => exact h
  | cons line l ih =>
    rw [buffer.emit]
    split
    · refine ih { h with front := ?_ }
      rw [← h.front]
      simp
    · exact h

theorem write (h : Drained b u) (line : String) (point : insertion_point) :
    Drained (b.write line point) (u.write line point) := by
  have hlines := h.write_lines point (buffer.split line)
  rw [buffer.write, buffer.write]
  simpa only [hlines.on_file, hlines.in_memory, if_true, Bool.false_eq_true, if_false] using hlines.emit

/-- Erasing the placeholder leaves the lines before and after it. -/
theorem untagged_eq (h : Drained b u) : b.out_stream ++ b.untagged = u.untagged := by
  rw [buffer.untagged, buffer.untagged, if_pos h.tagged, if_pos h.tagged_memory, ← h.front, ← h.back, List.append_assoc]

theorem perform (h : Drained b u) (op : Op) : Drained (b.perform op) (u.perform op) := by
  cases op with
  | write_to_end line => exact h.write line .buf_end
  | write_to_tag line => exact h.write line .tag
  | set_tag_to_end => exact { h with tagged := rfl, tagged_memory := rfl, front := h.untagged_eq, back := rfl }
  | push_delimiter left right => exact { h with delimiters := congrArg (· ++ [delimiter.mk left right]) h.delimiters }
  | pop_delimiter => exact { h with delimiters := congrArg List.dropLast h.delimiters }
  | push_skip_blank skip => exact { h with skips := congrArg (skip :: ·) h.skips }
  | pop_skip_blank => exact { h with skips := congrArg List.tail h.skips }

theorem run (h : Drained b u) (ops : List Op) : Drained (b.run ops) (u.run ops) := by
  induction ops generalizing b u with
  | nil => exact h
  | cons op ops ih => exact ih (h.perform op)

end Drained

/-- **Early writing changes nothing**: the file has the lines that an unlimited buffer would hold, in the same order. -/
theorem output_eq (capacity : UInt32) (ops : List Op) :
    ((buffer.file capacity).run ops).destroy = (buffer.memory.run ops).untagged := by
  have hdrained := (Drained.start capacity).run ops
  rw [buffer.destroy, hdrained.on_file, ← hdrained.untagged_eq]
  rfl

/-! ### The size -/

/-- The total length of some lines. -/
def total (lines : List String) : ℕ := (lines.map String.length).sum

@[simp] theorem total_nil : total [] = 0 := rfl

@[simp] theorem total_cons (line : String) (lines : List String) :
    total (line :: lines) = line.length + total lines := by
  simp [total]

@[simp] theorem total_append (lines lines' : List String) : total (lines ++ lines') = total lines + total lines' := by
  simp [total]

namespace buffer

variable (b : buffer)

/-- The total length of the lines that are held. -/
def held : ℕ := total b.front + total b.back

/-- The lines that a write inserts. -/
def inserted (lines : List String) : List String :=
  (lines.filter fun str => !(b.skip && str.length == 0)).map b.delimit_line

/-- What an operation adds to the total length. -/
def added : Op → ℕ
  | .write_to_end line => total (b.inserted (split line))
  | .write_to_tag line => total (b.inserted (split line))
  | _ => 0

/-- The size is the total length of the lines held, as far as an `unsigned` can count. -/
def Counted : Prop := b.size.toNat = b.held % 2 ^ 32

variable {b}

theorem held_insert (point : insertion_point) (str : String) : (b.insert point str).held = b.held + str.length := by
  cases point <;> simp only [insert, held, total_append, total_cons, total_nil] <;> omega

theorem size_insert (point : insertion_point) (str : String) :
    (b.insert point str).size.toNat = (b.size.toNat + str.length) % 2 ^ 32 := by
  cases point <;> simp [insert, UInt32.toNat_add]

theorem inserted_insert (point : insertion_point) (str : String) (lines : List String) :
    (b.insert point str).inserted lines = b.inserted lines := by
  cases point <;> rfl

theorem inserted_cons (str : String) (lines : List String) :
    b.inserted (str :: lines) =
      if b.skip && str.length == 0 then b.inserted lines else b.delimit_line str :: b.inserted lines := by
  rw [inserted, List.filter_cons]
  cases hskip : (b.skip && str.length == 0) <;> rfl

theorem held_write_lines (point : insertion_point) (lines : List String) :
    (lines.foldl (fun b str => b.write_line point str) b).held = b.held + total (b.inserted lines) := by
  induction lines generalizing b with
  | nil => rfl
  | cons str lines ih =>
    rw [List.foldl_cons, ih, inserted_cons, write_line]
    split
    · rfl
    · rw [inserted_insert, held_insert, total_cons]
      omega

/-- The size wraps around. -/
theorem size_write_lines (point : insertion_point) (lines : List String) :
    (lines.foldl (fun b str => b.write_line point str) b).size.toNat =
      (b.size.toNat + total (b.inserted lines)) % 2 ^ 32 := by
  induction lines generalizing b with
  | nil => simp [inserted]
  | cons str lines ih =>
    rw [List.foldl_cons, ih, inserted_cons, write_line]
    split
    · rfl
    · rw [inserted_insert, size_insert, total_cons]
      omega

/-- Lines that are written to the file are not held any more, and the size is decreased accordingly. -/
theorem counted_emit {l : List String} (h : b.size.toNat = (total l + total b.back) % 2 ^ 32) :
    (b.emit l).Counted ∧ (b.emit l).held ≤ total l + total b.back := by
  induction l generalizing b with
  | nil => exact ⟨h, le_rfl⟩
  | cons line l ih =>
    rw [emit]
    split
    · have hsize : (b.size - .ofNat line.length).toNat = (total l + total b.back) % 2 ^ 32 := by
        rw [total_cons] at h
        rw [UInt32.toNat_sub, UInt32.toNat_ofNat']
        omega
      obtain ⟨hcounted, hle⟩ := @ih { b with
        out_stream := b.out_stream ++ [line], size := b.size - .ofNat line.length } hsize
      exact ⟨hcounted, hle.trans (by simp)⟩
    · exact ⟨h, le_rfl⟩

theorem counted_write (h : b.Counted) (line : String) (point : insertion_point) :
    (b.write line point).Counted ∧ (b.write line point).held ≤ b.held + total (b.inserted (split line)) := by
  have hheld := held_write_lines (b := b) point (split line)
  have hsize := size_write_lines (b := b) point (split line)
  rw [← hheld]
  have hcounted : ((split line).foldl (fun b str => b.write_line point str) b).Counted := by
    rw [Counted, hsize, hheld, h]
    omega
  rw [write]
  split
  · exact ⟨hcounted, le_rfl⟩
  · exact counted_emit hcounted

/-- Moving the tag moves lines, and the placeholder is not counted. -/
theorem held_set_tag_to_end (h : b.tagged = BUFFER_MAGIC_TAG) : b.set_tag_to_end.held = b.held := by
  simp [set_tag_to_end, untagged, h, held]

/-- **One operation** keeps the size in step with the lines held. -/
theorem counted_perform (h : b.Counted) (htagged : b.tagged = BUFFER_MAGIC_TAG) (op : Op) :
    (b.perform op).Counted ∧ (b.perform op).held ≤ b.held + b.added op := by
  cases op with
  | write_to_end line => exact counted_write h line .buf_end
  | write_to_tag line => exact counted_write h line .tag
  | set_tag_to_end =>
    rw [perform, Counted, held_set_tag_to_end htagged]
    exact ⟨h, le_rfl⟩
  | push_delimiter left right => exact ⟨h, le_rfl⟩
  | pop_delimiter => exact ⟨h, le_rfl⟩
  | push_skip_blank skip => exact ⟨h, le_rfl⟩
  | pop_skip_blank => exact ⟨h, le_rfl⟩

end buffer

/-! ### Runs -/

/-- The buffer is faithful in a run: its file has in the end the lines of an unlimited buffer, and in every state reached
no line after the tag has been written early, and the size is the total length of the lines held. -/
structure Faithful (capacity : UInt32) (ops : List Op) : Prop where
  output : ((buffer.file capacity).run ops).destroy = (buffer.memory.run ops).untagged
  drained : ∀ done rest, ops = done ++ rest → Drained ((buffer.file capacity).run done) (buffer.memory.run done)
  size : ∀ done rest, ops = done ++ rest →
    ((buffer.file capacity).run done).size.toNat = ((buffer.file capacity).run done).held

/-- No operation brings the total length of the lines held to more than an `unsigned` can count. -/
def buffer.Fits (b : buffer) : List Op → Prop
  | [] => True
  | op :: ops => b.held + b.added op < 2 ^ 32 ∧ (b.perform op).Fits ops

theorem counted_run (capacity : UInt32) (ops : List Op) : ((buffer.file capacity).run ops).Counted := by
  induction ops using List.reverseRecOn with
  | nil => rfl
  | append_singleton ops op ih =>
    rw [buffer.run, List.foldl_append]
    exact (buffer.counted_perform ih ((Drained.start capacity).run ops).tagged op).1

/-- The lines held are never too long in total. -/
theorem held_lt_of_fits {b u : buffer} {done rest : List Op} (hfits : b.Fits (done ++ rest)) (hcounted : b.Counted)
    (hdrained : Drained b u) (hheld : b.held < 2 ^ 32) : (b.run done).held < 2 ^ 32 := by
  induction done generalizing b u with
  | nil => exact hheld
  | cons op done ih =>
    obtain ⟨hcounted', hle⟩ := buffer.counted_perform hcounted hdrained.tagged op
    exact ih hfits.2 hcounted' (hdrained.perform op) (hle.trans_lt hfits.1)

/-- What a run gets wrong is the size of a buffer that holds too much. -/
theorem faithful_iff (capacity : UInt32) (ops : List Op) :
    Faithful capacity ops ↔ ∀ done rest, ops = done ++ rest → ((buffer.file capacity).run done).held < 2 ^ 32 := by
  constructor
  · intro h done rest hops
    have hsize := h.size done rest hops
    rw [counted_run] at hsize
    omega
  · intro h
    refine ⟨output_eq capacity ops, fun done _ _ => (Drained.start capacity).run done, fun done rest hops => ?_⟩
    rw [counted_run capacity done, Nat.mod_eq_of_lt (h done rest hops)]

/-- **A buffer is faithful** in every run in which no operation brings the lines held to `2 ^ 32` characters. -/
theorem faithful_of_fits (capacity : UInt32) (ops : List Op) (h : (buffer.file capacity).Fits ops) :
    Faithful capacity ops := by
  rw [faithful_iff]
  rintro done rest rfl
  exact held_lt_of_fits h rfl (Drained.start capacity) (show total [] + total [] < 2 ^ 32 by decide)

/-- A buffer of two characters, with lines at the end and at the tag. -/
theorem faithful_small :
    Faithful 2 [.write_to_end "abc", .set_tag_to_end, .write_to_end "d\ne", .write_to_tag "f"] :=
  faithful_of_fits _ _ ⟨by decide, by decide, by decide, by decide, trivial⟩

/-- A line of `n` characters. -/
def long (n : ℕ) : String := .ofList (.replicate n 'a')

theorem split_long (n : ℕ) : buffer.split (long n) = [long n] := by
  have hnewline : NEWLINE_CHAR ∉ List.replicate n 'a' := by
    rw [List.mem_replicate]
    rintro ⟨-, h⟩
    exact absurd h (by decide)
  simp [buffer.split, long, List.splitOn_eq_singleton hnewline]

theorem held_long (capacity : UInt32) (n : ℕ) :
    ((buffer.file capacity).run [.write_to_end (long n)]).held = n := by
  have hrun : (buffer.file capacity).run [.write_to_end (long n)] = (buffer.file capacity).insert .buf_end (long n) := by
    simp [buffer.run, buffer.perform, buffer.write_to_end, buffer.write, split_long, buffer.write_line, buffer.skip,
      buffer.file, buffer.insert, buffer.emit, buffer.delimit_line]
  rw [hrun, buffer.held_insert]
  simp [buffer.held, buffer.file, long]

/-- A line of `2 ^ 32` characters is not counted. -/
theorem long_line_not_counted : ¬ ∀ (capacity : UInt32) (ops : List Op), Faithful capacity ops := by
  intro h
  have hsize := (h 0 [.write_to_end (long (2 ^ 32))]).size [.write_to_end (long (2 ^ 32))] [] rfl
  rw [counted_run, held_long] at hsize
  omega

end CppTransport.Translator.FileBuffer
