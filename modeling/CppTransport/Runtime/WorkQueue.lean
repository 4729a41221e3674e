import CppTransport.Runtime.WaitForTasks
import Mathlib.Algebra.Order.BigOperators.Group.List
import Mathlib.Algebra.Order.Field.Basic
import Mathlib.Algebra.BigOperators.Ring.Finset
import Mathlib.Algebra.Field.Rat
import Mathlib.Tactic.Linarith
import Mathlib.Tactic.Positivity
import Mathlib.Tactic.Ring

/-!
# Work queues

A context lists the devices of a worker with their weights. A work queue gives every item to the
first device whose share of the items is below its share of the weight, and to the first device
of all if there is none; the items of one device are kept in one or more work lists, a new one
being begun when the last one needs more memory than the device has.

## The model

Shares are compared in exact arithmetic. A share of no items at all (a division by zero in the
source) is not less than anything. The counters of items are `unsigned int`s, as is the total
weight of a context.

## What is proved

`distributes_iff`: nothing is lost or duplicated, the counters say how many items there are, and a
device of weight `w` holds fewer than `w * n + 1` of `n` items, if and only if `n` is below `2 ^ 32`,
where the counter of all items wraps around.

`device_queue.within_memory_iff`: no work list ever needs more memory than its device has if and only if one list
could hold all the items. The last list is tested before the item is added to it, so that a list that
just fits still takes one more.
-/

namespace CppTransport.Runtime.Scheduling

open SlaveController (exception exception_type)

/-! ### Contexts -/

inductive memory_type where
  | bounded
  | unbounded
deriving DecidableEq, Repr

/-- Device record. -/
structure device where
  name : String
  /-- Device memory capacity. -/
  mem_size : UInt32
  /-- Device memory type. -/
  type : memory_type
  /-- Device compute weight. -/
  weight : UInt32
deriving DecidableEq, Repr

structure context where
  /-- Device records describing this context. -/
  devices : List device
  /-- Total weight of this compute context. -/
  total_weight : UInt32
deriving DecidableEq, Repr

/-- The context of the constructor. -/
def context.empty : context := ⟨[], 0⟩

/-- `add_device`. -/
def context.add_device (c : context) (name : String) (mem_size : UInt32 := 0)
    (type : memory_type := .unbounded) (weight : UInt32 := 1) : context where
  devices := c.devices ++ [⟨name, mem_size, type, weight⟩]
  total_weight := c.total_weight + weight

/-- `get_fractional_weight`, with the context that the device belongs to. -/
def device.get_fractional_weight (d : device) (parent : context) : ℚ :=
  (d.weight.toNat : ℚ) / parent.total_weight.toNat

/-! ### Queues -/

variable {α : Type*}

/-- A list of work items for a specific device. -/
structure device_work_list (α : Type*) where
  work_list : List α
  /-- Memory required for the state vector. -/
  state_size : UInt32

/-- Memory required to integrate all the items, in 64 bits. -/
def device_work_list.get_memory_required (l : device_work_list α) : ℕ :=
  l.state_size.toNat * l.work_list.length % 2 ^ 64

/-- A queue of work items for a specific device, broken into work lists. -/
structure device_queue (α : Type*) where
  /-- The work lists for this device. -/
  queue_list : List (device_work_list α)
  /-- Device corresponding to this queue. -/
  device : device
  state_size : UInt32
  /-- Total number of items queued on this device, over all work lists. -/
  total_items : UInt32
  /-- The constructor begins the first list. -/
  nonempty : queue_list ≠ []

namespace device_queue

variable (q : device_queue α)

/-- The constructor. -/
def create (dev : Scheduling.device) (size : UInt32) : device_queue α where
  queue_list := [⟨[], size⟩]
  device := dev
  state_size := size
  total_items := 0
  nonempty := List.cons_ne_nil _ _

/-- `queue_list.back()`. -/
def back : device_work_list α := q.queue_list.getLast q.nonempty

/-- `new_queue`. -/
def new_queue : device_queue α :=
  { q with queue_list := q.queue_list ++ [⟨[], q.state_size⟩], nonempty := by simp }

/-- Whether the last list needs more memory than the device has. -/
def full : Bool := q.device.type = .bounded && q.back.get_memory_required > q.device.mem_size.toNat

/-- Add an item to the last list. -/
def push_back (item : α) : device_queue α :=
  { q with
    queue_list := q.queue_list.dropLast ++ [{ q.back with work_list := q.back.work_list ++ [item] }]
    total_items := q.total_items + 1
    nonempty := by simp }

/-- `enqueue_item`. -/
def enqueue_item (item : α) : device_queue α := (if q.full then q.new_queue else q).push_back item

/-- The items of a device, over all work lists. -/
def items : List α := q.queue_list.flatMap (·.work_list)

end device_queue

/-- Queues for each device of a context. -/
structure work_queue (α : Type*) where
  /-- Device context. -/
  ctx : context
  /-- Queues for each device. -/
  device_list : List (device_queue α)
  /-- Total number of work items we are holding, summed over all devices. -/
  total_items : UInt32
  state_size : UInt32

def CPPTRANSPORT_NO_DEVICES : String := "Fatal: no devices specified in context"

namespace work_queue

/-- The constructor. -/
def create (c : context) (size : UInt32) : Except exception (work_queue α) :=
  if c.devices.length = 0 then .error (.runtime_exception .FATAL_ERROR CPPTRANSPORT_NO_DEVICES)
  else .ok ⟨c, c.devices.map fun d => .create d size, 0, size⟩

variable (w : work_queue α)

/-- `this_delta`: the difference between current weight and desired weight, if there is one. -/
def this_delta (q : device_queue α) : Option ℚ :=
  if w.total_items = 0 then none
  else some ((q.total_items.toNat : ℚ) / w.total_items.toNat - q.device.get_fractional_weight w.ctx)

/-- Whether a queue is shorter than desired. -/
def shorter (q : device_queue α) : Bool :=
  match w.this_delta q with
  | none => false
  | some delta => delta < 0

/-- The loop of `enqueue_work_item`: the item goes into the first queue that is shorter than desired. -/
def insert_first (item : α) : List (device_queue α) → Option (List (device_queue α))
  | [] => none
  | q :: qs => if w.shorter q then some (q.enqueue_item item :: qs) else (insert_first item qs).map (q :: ·)

/-- `enqueue_work_item`. -/
def enqueue_work_item (item : α) : work_queue α :=
  { w with
    device_list := (w.insert_first item w.device_list).getD (w.device_list.modifyHead (·.enqueue_item item))
    total_items := w.total_items + 1 }

end work_queue

/-! ### What the queues should do -/

/-- The items are distributed over the devices of the context. -/
structure Distributes (c : context) (w : work_queue α) (items : List α) : Prop where
  /-- There is one queue for each device. -/
  devices : w.device_list.map (·.device) = c.devices
  /-- Nothing is lost and nothing is duplicated. -/
  perm : (w.device_list.flatMap (·.items)).Perm items
  /-- Each device keeps the order. -/
  order : ∀ q ∈ w.device_list, q.items.Sublist items
  /-- The counters of the devices count. -/
  device_total : ∀ q ∈ w.device_list, q.total_items.toNat = q.items.length
  /-- So does the counter of the whole queue. -/
  total : w.total_items.toNat = (w.device_list.flatMap (·.items)).length
  /-- No device holds much more than its share. -/
  balanced : ∀ q ∈ w.device_list, (q.items.length : ℚ) < q.device.get_fractional_weight c * items.length + 1

/-- Positive weights that sum to 1. -/
structure Weighted (c : context) : Prop where
  pos : ∀ d ∈ c.devices, 0 < d.get_fractional_weight c
  sum : (c.devices.map (·.get_fractional_weight c)).sum = 1

/-! ### Contexts that are built by adding devices -/

/-- The total weight is the sum of the weights, as far as it fits into 32 bits. -/
def context.Totals (c : context) : Prop :=
  c.total_weight.toNat = (c.devices.map (·.weight.toNat)).sum % 2 ^ 32

theorem totals_empty : context.empty.Totals := rfl

theorem context.Totals.add_device {c : context} (h : c.Totals) (name : String) (mem_size : UInt32)
    (type : memory_type) (weight : UInt32) : (c.add_device name mem_size type weight).Totals := by
  unfold Totals at h ⊢
  simp only [context.add_device, UInt32.toNat_add, h, List.map_append, List.sum_append, List.map_cons, List.map_nil,
    List.sum_cons, List.sum_nil, add_zero, Nat.mod_add_mod]

theorem sum_fractional_weight (c : context) : (c.devices.map (·.get_fractional_weight c)).sum =
    (((c.devices.map (·.weight.toNat)).sum : ℕ) : ℚ) / c.total_weight.toNat := by
  induction c.devices with
  | nil => simp
  | cons d ds ih =>
    rw [List.map_cons, List.sum_cons, ih, device.get_fractional_weight, List.map_cons, List.sum_cons]
    push_cast
    ring

/-- Positive weights that together fit into 32 bits make a weighted context. -/
theorem context.Totals.weighted {c : context} (h : c.Totals) (hne : c.devices ≠ [])
    (hpos : ∀ d ∈ c.devices, 0 < d.weight)
    (hfit : (c.devices.map (·.weight.toNat)).sum < 2 ^ 32) : Weighted c := by
  have htotal : c.total_weight.toNat = (c.devices.map (·.weight.toNat)).sum := h.trans (Nat.mod_eq_of_lt hfit)
  have hsum : 0 < (c.devices.map (·.weight.toNat)).sum := by
    obtain ⟨d, ds, hd⟩ := List.exists_cons_of_ne_nil hne
    have hw : 0 < d.weight.toNat := UInt32.lt_iff_toNat_lt.mp (hpos d (by simp [hd]))
    rw [hd, List.map_cons, List.sum_cons]
    omega
  refine ⟨fun d hd => ?_, ?_⟩
  · have hw : 0 < d.weight.toNat := UInt32.lt_iff_toNat_lt.mp (hpos d hd)
    rw [device.get_fractional_weight, htotal]
    positivity
  · rw [sum_fractional_weight, htotal, div_self]
    exact_mod_cast hsum.ne'

/-! ### One item -/

namespace device_queue

variable (q : device_queue α) (item : α)

@[simp] theorem items_create (dev : Scheduling.device) (size : UInt32) :
    (create dev size : device_queue α).items = [] := rfl

@[simp] theorem items_new_queue : q.new_queue.items = q.items := by simp [new_queue, items]

@[simp] theorem items_push_back : (q.push_back item).items = q.items ++ [item] := by
  conv_rhs => rw [items, ← List.dropLast_append_getLast q.nonempty]
  simp [push_back, items, back]

@[simp] theorem items_enqueue_item : (q.enqueue_item item).items = q.items ++ [item] := by
  unfold enqueue_item
  split_ifs <;> simp

@[simp] theorem device_enqueue_item : (q.enqueue_item item).device = q.device := by
  unfold enqueue_item
  split_ifs <;> rfl

@[simp] theorem total_items_enqueue_item : (q.enqueue_item item).total_items = q.total_items + 1 := by
  unfold enqueue_item
  split_ifs <;> rfl

end device_queue

namespace work_queue

variable (w : work_queue α) (item : α)

/-- The loop leaves at the first queue that is too short, or finds that none is. -/
theorem insert_first_cases (qs : List (device_queue α)) :
    (∃ l₁ q l₂, qs = l₁ ++ q :: l₂ ∧ w.shorter q = true ∧
      w.insert_first item qs = some (l₁ ++ q.enqueue_item item :: l₂)) ∨
    (∀ q ∈ qs, w.shorter q = false) ∧ w.insert_first item qs = none := by
  induction qs with
  | nil => exact .inr ⟨by simp, rfl⟩
  | cons q qs ih =>
    by_cases hq : w.shorter q = true
    · exact .inl ⟨[], q, qs, rfl, hq, by simp [insert_first, hq]⟩
    · rcases ih with ⟨l₁, q', l₂, rfl, hq', hins⟩ | ⟨hall, hins⟩
      · exact .inl ⟨q :: l₁, q', l₂, rfl, hq', by simp [insert_first, hq, hins]⟩
      · refine .inr ⟨fun q' hq' => ?_, by simp [insert_first, hq, hins]⟩
        rcases List.mem_cons.mp hq' with rfl | hmem
        · simpa using hq
        · exact hall _ hmem

/-- **One item** goes to one device, which is too short, or is the first while no device is. -/
theorem enqueue_work_item_cases (hne : w.device_list ≠ []) : ∃ l₁ q l₂, w.device_list = l₁ ++ q :: l₂ ∧
    (w.enqueue_work_item item).device_list = l₁ ++ q.enqueue_item item :: l₂ ∧
      (w.shorter q = true ∨ ∀ q' ∈ w.device_list, w.shorter q' = false) := by
  rcases w.insert_first_cases item w.device_list with ⟨l₁, q, l₂, hl, hq, hins⟩ | ⟨hall, hins⟩
  · exact ⟨l₁, q, l₂, hl, by simp [enqueue_work_item, hins], .inl hq⟩
  · obtain ⟨q, qs, hqs⟩ := List.exists_cons_of_ne_nil hne
    refine ⟨[], q, qs, hqs, ?_, .inr hall⟩
    rw [enqueue_work_item, hins, hqs]
    rfl

/-- The counter of all items wraps around. -/
theorem toNat_total_items_foldl (items : List α) (h : w.total_items = 0) :
    (items.foldl enqueue_work_item w).total_items.toNat = items.length % 2 ^ 32 := by
  induction items using List.reverseRecOn with
  | nil => simp [h]
  | append_singleton items item ih =>
    rw [List.foldl_append, List.foldl_cons, List.foldl_nil, enqueue_work_item, UInt32.toNat_add, ih,
      List.length_append, List.length_singleton]
    exact Nat.mod_add_mod _ _ _

end work_queue

/-! ### All items -/

namespace Distributes

variable {c : context} {w : work_queue α} {items : List α}

theorem create {c : context} {size : UInt32} (h : work_queue.create c size = .ok w) :
    Distributes c w [] ∧ w.ctx = c ∧ w.total_items = 0 := by
  unfold work_queue.create at h
  split_ifs at h
  obtain rfl := Except.ok.inj h
  refine ⟨⟨?_, ?_, ?_, ?_, ?_, ?_⟩, rfl, rfl⟩
  · simp [device_queue.create, Function.comp_def]
  · simp [List.flatMap_map]
  · simp
  · simp [device_queue.create, device_queue.items]
  · simp [List.flatMap_map]
  · simp

/-- While nothing wraps around, a queue is too short if it holds less than its share. -/
theorem shorter_iff (h : Distributes c w items) (hctx : w.ctx = c) {q : device_queue α} (hq : q ∈ w.device_list) :
    w.shorter q = true ↔ 0 < items.length ∧
      (q.items.length : ℚ) < q.device.get_fractional_weight c * items.length := by
  have htotal : w.total_items.toNat = items.length := h.total.trans h.perm.length_eq
  by_cases hz : w.total_items = 0
  · have hlen : items.length = 0 := by rw [← htotal, hz]; rfl
    simp [work_queue.shorter, work_queue.this_delta, hz, hlen]
  · have hlen : 0 < items.length := by
      rw [← htotal]
      exact Nat.pos_of_ne_zero fun h0 => hz (UInt32.toNat_inj.mp h0)
    have hpos : (0 : ℚ) < items.length := by exact_mod_cast hlen
    simp only [work_queue.shorter, work_queue.this_delta, hz, if_false, htotal, h.device_total q hq, hctx,
      decide_eq_true_eq, sub_neg, div_lt_iff₀ hpos, hlen, true_and]

/-- If no queue is too short, then each holds exactly its share. -/
theorem eq_share (h : Distributes c w items) (hc : Weighted c)
    (hall : ∀ q ∈ w.device_list, q.device.get_fractional_weight c * items.length ≤ (q.items.length : ℚ))
    {q : device_queue α} (hq : q ∈ w.device_list) :
    (q.items.length : ℚ) = q.device.get_fractional_weight c * items.length := by
  refine le_antisymm (not_lt.mp fun hlt => ?_) (hall q hq)
  have hsum := List.sum_lt_sum (fun q : device_queue α => q.device.get_fractional_weight c * items.length)
    (fun q => (q.items.length : ℚ)) hall ⟨q, hq, hlt⟩
  have hleft : (w.device_list.map fun q => q.device.get_fractional_weight c * (items.length : ℚ)).sum =
      items.length := by
    have hdev : w.device_list.map (fun q => q.device.get_fractional_weight c * (items.length : ℚ)) =
        c.devices.map fun d => d.get_fractional_weight c * (items.length : ℚ) := by
      rw [← h.devices, List.map_map]
      rfl
    rw [hdev, List.sum_map_mul_right, hc.sum, one_mul]
  have hright : (w.device_list.map fun q => (q.items.length : ℚ)).sum = items.length := by
    rw [← h.perm.length_eq, List.length_flatMap, Nat.cast_list_sum, List.map_map]
    rfl
  rw [hleft, hright] at hsum
  exact lt_irrefl _ hsum

/-- The queue that an item goes to does not hold more than its share. -/
theorem le_share (h : Distributes c w items) (hc : Weighted c) (hctx : w.ctx = c) {q : device_queue α}
    (hq : q ∈ w.device_list) (hwhy : w.shorter q = true ∨ ∀ q' ∈ w.device_list, w.shorter q' = false) :
    (q.items.length : ℚ) ≤ q.device.get_fractional_weight c * items.length := by
  rcases hwhy with hshort | hall
  · exact ((h.shorter_iff hctx hq).mp hshort).2.le
  · rcases Nat.eq_zero_or_pos items.length with hzero | hpos
    · have hle := (h.order q hq).length_le
      rw [hzero] at hle ⊢
      simp [Nat.le_zero.mp hle]
    · refine (h.eq_share hc (fun q' hq' => not_lt.mp fun hlt => ?_) hq).le
      simpa [hall q' hq'] using (h.shorter_iff hctx hq').mpr ⟨hpos, hlt⟩

/-- **One item**, as long as the counter has not come to its end. -/
theorem enqueue_work_item (h : Distributes c w items) (hc : Weighted c) (hctx : w.ctx = c) (item : α)
    (hlen : items.length + 1 < 2 ^ 32) : Distributes c (w.enqueue_work_item item) (items ++ [item]) := by
  have hne : w.device_list ≠ [] := by
    intro hnil
    have hdev := h.devices
    rw [hnil, List.map_nil] at hdev
    simpa [← hdev] using hc.sum
  have htotal : w.total_items.toNat = items.length := h.total.trans h.perm.length_eq
  obtain ⟨l₁, q, l₂, hl, hl', hwhy⟩ := w.enqueue_work_item_cases item hne
  have hq : q ∈ w.device_list := by simp [hl]
  have hold : ∀ q' ∈ (w.enqueue_work_item item).device_list, q' ∈ w.device_list ∨ q' = q.enqueue_item item := by
    intro q' hq'
    rw [hl', List.mem_append, List.mem_cons] at hq'
    rw [hl, List.mem_append, List.mem_cons]
    tauto
  have hperm : ((w.enqueue_work_item item).device_list.flatMap (·.items)).Perm (items ++ [item]) := by
    refine List.Perm.trans ?_ (h.perm.append_right _)
    rw [hl', hl]
    simp only [List.flatMap_append, List.flatMap_cons, device_queue.items_enqueue_item, List.append_assoc]
    exact (List.perm_append_comm.append_left _).append_left _
  refine ⟨?_, hperm, fun q' hq' => ?_, fun q' hq' => ?_, ?_, fun q' hq' => ?_⟩
  · rw [← h.devices, hl', hl]
    simp
  · rcases hold q' hq' with hmem | rfl
    · exact (h.order q' hmem).trans (List.sublist_append_left _ _)
    · rw [device_queue.items_enqueue_item]
      exact (h.order q hq).append (List.Sublist.refl _)
  · rcases hold q' hq' with hmem | rfl
    · exact h.device_total q' hmem
    · have hle := (h.order q hq).length_le
      rw [device_queue.total_items_enqueue_item, UInt32.toNat_add, h.device_total q hq,
        device_queue.items_enqueue_item, List.length_append, List.length_singleton]
      exact Nat.mod_eq_of_lt (by simp; omega)
  · rw [hperm.length_eq, work_queue.enqueue_work_item, UInt32.toNat_add, htotal, List.length_append,
      List.length_singleton]
    exact Nat.mod_eq_of_lt (by simpa using hlen)
  · have hweight (q' : device_queue α) (hmem : q' ∈ w.device_list) : 0 < q'.device.get_fractional_weight c :=
      hc.pos _ (h.devices ▸ List.mem_map_of_mem hmem)
    rw [List.length_append, List.length_singleton, Nat.cast_add, Nat.cast_one]
    rcases hold q' hq' with hmem | rfl
    · linarith [h.balanced q' hmem, hweight q' hmem]
    · rw [device_queue.items_enqueue_item, device_queue.device_enqueue_item, List.length_append, List.length_singleton,
        Nat.cast_add, Nat.cast_one]
      linarith [hweight q hq, h.le_share hc hctx hq hwhy]

/-- Fewer than `2 ^ 32` items are distributed. -/
theorem foldl (h : Distributes c w []) (hc : Weighted c) (hctx : w.ctx = c) (items : List α)
    (hlen : items.length < 2 ^ 32) :
    Distributes c (items.foldl work_queue.enqueue_work_item w) items ∧
      (items.foldl work_queue.enqueue_work_item w).ctx = c := by
  induction items using List.reverseRecOn with
  | nil => exact ⟨h, hctx⟩
  | append_singleton items item ih =>
    rw [List.length_append, List.length_singleton] at hlen
    obtain ⟨hitems, hctx'⟩ := ih (Nat.lt_of_succ_lt hlen)
    rw [List.foldl_append, List.foldl_cons, List.foldl_nil]
    exact ⟨hitems.enqueue_work_item hc hctx' item hlen, hctx'⟩

/-- From `2 ^ 32` items on the counter does not say how many there are. -/
theorem length_lt (hw : w.total_items = 0)
    (h : Distributes c (items.foldl work_queue.enqueue_work_item w) items) : items.length < 2 ^ 32 := by
  have htotal := h.total.trans h.perm.length_eq
  rw [w.toNat_total_items_foldl items hw] at htotal
  exact htotal ▸ Nat.mod_lt _ (by positivity)

end Distributes

/-- **Distribution**: a queue over weighted devices does what it should with `n` items if and only
if `n` is below `2 ^ 32`. -/
theorem distributes_iff {c : context} (hc : Weighted c) (size : UInt32) (items : List α) :
    ∃ w, work_queue.create c size = .ok w ∧
      (Distributes c (items.foldl work_queue.enqueue_work_item w) items ↔ items.length < 2 ^ 32) := by
  have hne : c.devices.length ≠ 0 := by
    intro hnil
    simpa [List.length_eq_zero_iff.mp hnil] using hc.sum
  obtain ⟨w, hw⟩ : ∃ w : work_queue α, work_queue.create c size = .ok w := ⟨_, if_neg hne⟩
  obtain ⟨hempty, hctx, hzero⟩ := Distributes.create hw
  exact ⟨w, hw, fun h => h.length_lt hzero, fun hlen => (hempty.foldl hc hctx items hlen).1⟩

/-- Two devices, one of which gets two thirds of the items. -/
def twoDevices : context := (context.empty.add_device "cpu" 0 .unbounded 2).add_device "gpu" 16 .bounded 1

theorem weighted_twoDevices : Weighted twoDevices := by
  refine ((totals_empty.add_device "cpu" 0 .unbounded 2).add_device "gpu" 16 .bounded 1).weighted ?_ ?_ ?_
  · decide
  · decide
  · decide

theorem distributes_iff_two_devices : ∃ w, work_queue.create twoDevices 8 = .ok w ∧
    (Distributes twoDevices ([3, 1, 4, 1, 5].foldl work_queue.enqueue_work_item w) [3, 1, 4, 1, 5] ↔
      [3, 1, 4, 1, 5].length < 2 ^ 32) :=
  distributes_iff weighted_twoDevices 8 [3, 1, 4, 1, 5]

/-- `2 ^ 32` items: the queue says that it holds none. -/
theorem total_items_wraps : ∃ w, work_queue.create twoDevices 8 = .ok w ∧
    ((List.replicate (2 ^ 32) ()).foldl work_queue.enqueue_work_item w).total_items = 0 ∧
      ¬ Distributes twoDevices ((List.replicate (2 ^ 32) ()).foldl work_queue.enqueue_work_item w)
        (List.replicate (2 ^ 32) ()) := by
  obtain ⟨w, hw⟩ : ∃ w : work_queue Unit, work_queue.create twoDevices 8 = .ok w := ⟨_, if_neg (by decide)⟩
  obtain ⟨-, -, hzero⟩ := Distributes.create hw
  refine ⟨w, hw, UInt32.toNat_inj.mp ?_, fun h => ?_⟩
  · rw [w.toNat_total_items_foldl _ hzero, List.length_replicate]
    decide
  · have hlen := h.length_lt hzero
    rw [List.length_replicate] at hlen
    exact lt_irrefl _ hlen

/-! ### The memory of a device -/

namespace device_queue

/-- The queue after some calls of `enqueue_item`. -/
def run (dev : Scheduling.device) (size : UInt32) (items : List α) : device_queue α :=
  items.foldl enqueue_item (create dev size)

/-- The work lists need no more memory than the device has. -/
def Within (q : device_queue α) : Prop :=
  ∀ l ∈ q.queue_list, l.state_size.toNat * l.work_list.length ≤ q.device.mem_size.toNat

/-- The item would not fit in the last list. -/
def NoRoom (q : device_queue α) : Prop :=
  q.device.mem_size.toNat < q.state_size.toNat * (q.back.work_list.length + 1)

/-- **The memory of the device is respected**, whenever an item is added, and a list is begun only when it has to be. -/
structure Fits (dev : Scheduling.device) (size : UInt32) (items : List α) : Prop where
  within : ∀ done, done <+: items → (run dev size done).Within
  opened : ∀ done item, done ++ [item] <+: items →
    (run dev size (done ++ [item])).queue_list.length ≠ (run dev size done).queue_list.length →
      (run dev size done).NoRoom

variable {dev : Scheduling.device} {size : UInt32} {items : List α} {q : device_queue α}

theorem run_append_singleton (item : α) : run dev size (items ++ [item]) = (run dev size items).enqueue_item item := by
  rw [run, List.foldl_append]
  rfl

/-- Every list has the state size of its queue. -/
def Uniform (q : device_queue α) : Prop := ∀ l ∈ q.queue_list, l.state_size = q.state_size

theorem Uniform.enqueue_item (h : q.Uniform) (item : α) : (q.enqueue_item item).Uniform := by
  have hpush : ∀ q : device_queue α, q.Uniform → (q.push_back item).Uniform := by
    intro q hq l hl
    rcases List.mem_append.mp hl with hmem | hmem
    · exact hq l (List.mem_of_mem_dropLast hmem)
    · rw [List.mem_singleton.mp hmem]
      exact hq q.back (List.getLast_mem q.nonempty)
  unfold device_queue.enqueue_item
  split_ifs with hfull
  · refine hpush _ fun l hl => ?_
    rcases List.mem_append.mp hl with hmem | hmem
    · exact h l hmem
    · rw [List.mem_singleton.mp hmem]
      rfl
  · exact hpush _ h

theorem state_run (items : List α) : (run dev size items).device = dev ∧ (run dev size items).state_size = size ∧
    (run dev size items).Uniform := by
  induction items using List.reverseRecOn with
  | nil => exact ⟨rfl, rfl, fun l hl => by rw [List.mem_singleton.mp hl]; rfl⟩
  | append_singleton items item ih =>
    obtain ⟨hdevice, hsize, huniform⟩ := ih
    rw [run_append_singleton]
    refine ⟨(device_enqueue_item _ item).trans hdevice, ?_, huniform.enqueue_item item⟩
    rw [device_queue.enqueue_item]
    split_ifs <;> exact hsize

theorem length_queue_list_push_back (q : device_queue α) (item : α) :
    (q.push_back item).queue_list.length = q.queue_list.length := by
  have hpos := List.length_pos_iff.mpr q.nonempty
  simp only [push_back, List.length_append, List.length_dropLast, List.length_singleton]
  omega

/-- A list is begun only when the last one needs more than the device has. -/
theorem Uniform.noRoom_of_opened (h : q.Uniform) {item : α}
    (hopened : (q.enqueue_item item).queue_list.length ≠ q.queue_list.length) : q.NoRoom := by
  have hfull : q.full = true := by
    by_contra hnot
    rw [device_queue.enqueue_item, if_neg hnot] at hopened
    exact hopened (q.length_queue_list_push_back item)
  have hrequired : q.device.mem_size.toNat < q.back.get_memory_required := by
    rw [full, Bool.and_eq_true, decide_eq_true_eq, decide_eq_true_eq] at hfull
    exact hfull.2
  rw [device_work_list.get_memory_required, h q.back (List.getLast_mem q.nonempty)] at hrequired
  calc q.device.mem_size.toNat
      < q.state_size.toNat * q.back.work_list.length % 2 ^ 64 := hrequired
    _ ≤ q.state_size.toNat * q.back.work_list.length := Nat.mod_le _ _
    _ ≤ q.state_size.toNat * (q.back.work_list.length + 1) := Nat.mul_le_mul_left _ (Nat.le_succ _)

/-- While the items but the last fit, there is one list. -/
theorem queue_list_run (h : size.toNat * (items.length - 1) ≤ dev.mem_size.toNat) :
    (run dev size items).queue_list = [⟨items, size⟩] := by
  induction items using List.reverseRecOn with
  | nil => rfl
  | append_singleton items item ih =>
    rw [List.length_append, List.length_singleton, Nat.add_sub_cancel] at h
    have hlist := ih (le_trans (Nat.mul_le_mul_left _ (Nat.sub_le _ _)) h)
    have hback : (run dev size items).back = ⟨items, size⟩ := by
      simp only [back, hlist, List.getLast_singleton]
    have hfull : (run dev size items).full = false := by
      have hrequired : (run dev size items).back.get_memory_required ≤ dev.mem_size.toNat := by
        rw [hback]
        exact (Nat.mod_le _ _).trans h
      simp [full, (state_run items).1, hrequired]
    rw [run_append_singleton, device_queue.enqueue_item, hfull]
    simp [push_back, hlist, hback]

/-- **The memory of a bounded device** is respected if and only if one list can hold all the items. -/
theorem within_memory_iff (dev : Scheduling.device) (size : UInt32) (items : List α) :
    Fits dev size items ↔ size.toNat * items.length ≤ dev.mem_size.toNat := by
  constructor
  · intro h
    -- as long as all items are in one list, the next one goes there too
    have hinitial : ∀ n ≤ items.length, size.toNat * n ≤ dev.mem_size.toNat := by
      intro n hn
      induction n with
      | zero => simp
      | succ n ih =>
        have hlength : (items.take (n + 1)).length = n + 1 := List.length_take_of_le hn
        have hlist : (run dev size (items.take (n + 1))).queue_list = [⟨items.take (n + 1), size⟩] :=
          queue_list_run (by rw [hlength]; exact ih (Nat.le_of_succ_le hn))
        have hwithin := h.within _ (List.take_prefix (n + 1) items) _ (by rw [hlist]; exact List.mem_singleton_self _)
        rwa [hlength, (state_run _).1] at hwithin
    exact hinitial _ le_rfl
  · intro h
    refine ⟨fun done hdone l hl => ?_, fun done item _ hopened => ?_⟩
    · have hle : size.toNat * done.length ≤ dev.mem_size.toNat :=
        (Nat.mul_le_mul_left _ hdone.length_le).trans h
      rw [queue_list_run ((Nat.mul_le_mul_left _ (Nat.sub_le _ _)).trans hle)] at hl
      rw [List.mem_singleton.mp hl, (state_run done).1]
      exact hle
    · rw [run_append_singleton] at hopened
      exact (state_run done).2.2.noRoom_of_opened hopened

/-- A device with room for two states is given three items in one list. -/
theorem three_items_do_not_fit : ¬ Fits ⟨"gpu", 16, .bounded, 1⟩ 8 [3, 1, 4] := by
  intro h
  have hlist : (run ⟨"gpu", 16, .bounded, 1⟩ 8 [3, 1, 4]).queue_list = [⟨[3, 1, 4], 8⟩] := queue_list_run (by decide)
  have hwithin := h.within [3, 1, 4] (List.prefix_refl _) ⟨[3, 1, 4], 8⟩ (hlist ▸ List.mem_singleton_self _)
  exact absurd hwithin (by decide)

end device_queue

end CppTransport.Runtime.Scheduling
