import CppTransport.Library.Numerals
import CppTransport.Runtime.Linecache
import Mathlib.Algebra.Order.BigOperators.Group.List
import Mathlib.Algebra.Order.Ring.Nat

/-!
# What the line cache evicts

When the sizes of the items exceed the capacity, `advise_size_increase` works through the items, sorted by
their times of access, and evicts those that are not locked until the size has come down to a target. The
comments have the least recently used items evicted first, until the size is below the capacity.

## What is proved

The comparison sorts the most recently used items to the front, and the target is computed with `int`s, where
ten times the size may wrap around.

* `evicts_oldest_iff`: no item that survives is older than one that was evicted if and only if nothing is
  evicted, or nothing that is not locked survives, or all items that are not locked have one time of access;
* `bounded_iff`: the size does not exceed the capacity, or only locked items are left, if and only if the
  target is not met before the capacity is.
-/

namespace CppTransport.Runtime.Linecache

open Library
open scoped Library.Numerals

namespace cache

variable {Data Tag Query : Type*} {HashSize : ℕ}

/-- The cache when an increase in size has been counted. -/
def advised (c : cache Data Tag Query HashSize) (bytes : UInt32) : cache Data Tag Query HashSize :=
  { c with data_size := c.data_size + bytes }

@[simp] theorem items_advised (c : cache Data Tag Query HashSize) (bytes : UInt32) :
    (c.advised bytes).items = c.items := rfl

/-- The items that can be evicted, in the order in which they are. -/
def queue (c : cache Data Tag Query HashSize) : List (data_item Data Tag HashSize) :=
  c.clean_up_list.filter fun it => !it.locked

variable [BEq Tag] [BEq Query] {src : Source Data Tag Query HashSize} {c : cache Data Tag Query HashSize}
  {bytes target size : UInt32} {items : List (data_item Data Tag HashSize)} {it : data_item Data Tag HashSize}

/-- What is left of a size without some items. -/
def remaining (src : Source Data Tag Query HashSize) (size : UInt32) (items : List (data_item Data Tag HashSize)) :
    UInt32 :=
  items.foldl (fun size it => size - src.get_size it.data) size

/-! ### What an eviction does -/

theorem evict_eq_self (h : ¬ target < c.data_size) : evict src target c items = c := by
  cases items with
  | nil => rfl
  | cons it items => exact if_neg h

/-- Locked items are passed over. -/
theorem evict_filter : evict src target c items = evict src target c (items.filter fun it => !it.locked) := by
  induction items generalizing c with
  | nil => rfl
  | cons it items ih =>
    cases hlocked : it.locked with
    | true =>
      rw [List.filter_cons_of_neg (by simp [hlocked]), evict, if_pos hlocked]
      split_ifs with hsize
      · exact ih
      · exact (evict_eq_self hsize).symm
    | false =>
      rw [List.filter_cons_of_pos (by simp [hlocked]), evict, evict, hlocked, if_neg Bool.false_ne_true,
        if_neg Bool.false_ne_true, ← ih]

/-- An eviction goes through some items, as long as the size is above the target, and no further. -/
structure Evicts (src : Source Data Tag Query HashSize) (target : UInt32) (c : cache Data Tag Query HashSize)
    (front back : List (data_item Data Tag HashSize)) (c' : cache Data Tag Query HashSize) : Prop where
  items : c.items.Perm (front ++ c'.items)
  size : c'.data_size = remaining src c.data_size front
  capacity : c'.capacity = c.capacity
  above : ∀ pre it post, front = pre ++ it :: post → target < remaining src c.data_size pre
  stop : back = [] ∨ remaining src c.data_size front ≤ target

theorem Sound.evicts (hs : c.Sound src) (held : ∀ it ∈ items, it ∈ c.items) (nodup : (items.map (·.address)).Nodup)
    (unlocked : ∀ it ∈ items, it.locked = false) :
    ∃ front back, items = front ++ back ∧ Evicts src target c front back (evict src target c items) := by
  induction items generalizing c with
  | nil => exact ⟨[], [], rfl, .refl _, rfl, rfl, by simp, .inl rfl⟩
  | cons it items ih =>
    rw [evict, unlocked it List.mem_cons_self, if_neg Bool.false_ne_true]
    split_ifs with hsize
    · obtain ⟨hne, nodup⟩ := List.nodup_cons.mp nodup
      obtain ⟨sound, taken⟩ := hs.erase_spec (held it List.mem_cons_self)
      have held' : ∀ x ∈ items, x ∈ (c.erase src it).items := fun x hx => by
        rcases List.mem_cons.mp (taken.mem_iff.mp (held x (List.mem_cons_of_mem _ hx))) with rfl | hx'
        · exact absurd (List.mem_map_of_mem hx) hne
        · exact hx'
      obtain ⟨front, back, rfl, h⟩ := ih sound held' nodup fun x hx => unlocked x (List.mem_cons_of_mem _ hx)
      refine ⟨it :: front, back, rfl, taken.trans (h.items.cons it), h.size, h.capacity, ?_, h.stop⟩
      intro pre x post heq
      cases pre with
      | nil => exact hsize
      | cons y pre =>
        obtain ⟨rfl, hfront⟩ := List.cons.inj heq
        exact h.above pre x post hfront
    · exact ⟨[], it :: items, rfl, .refl _, rfl, rfl, by simp, .inr (UInt32.not_lt.mp hsize)⟩

omit [BEq Tag] [BEq Query] in
/-- What can be evicted are the items that are not locked. -/
theorem mem_queue : it ∈ c.queue ↔ it ∈ c.items ∧ it.locked = false := by
  have perm : c.clean_up_list.Perm c.items := (List.mergeSort_perm _ _).trans (List.reverse_perm _)
  rw [queue, List.mem_filter, perm.mem_iff, Bool.not_eq_true']

omit [BEq Tag] [BEq Query] in
/-- **Newer items are in front.** -/
theorem pairwise_queue : c.queue.Pairwise fun a b => b.last_access ≤ a.last_access := by
  have sorted : c.clean_up_list.Pairwise fun a b => decide (b.last_access ≤ a.last_access) = true := by
    refine List.pairwise_mergeSort (fun a b d hab hbd => ?_) (fun a b => ?_) _
    · exact decide_eq_true ((of_decide_eq_true hbd).trans (of_decide_eq_true hab))
    · simpa using le_total b.last_access a.last_access
  exact (sorted.imp fun h => of_decide_eq_true h).filter _

theorem advise_eq_evict (h : c.capacity < (c.advised bytes).data_size) : c.advise_size_increase src bytes =
    evict src (c.advised bytes).target_size (c.advised bytes) (c.advised bytes).queue :=
  (if_pos h).trans evict_filter

/-- **What `advise_size_increase` does**: nothing but counting, or an eviction. -/
theorem Sound.advise_cases (hs : (c.advised bytes).Sound src) :
    ((c.advised bytes).data_size ≤ c.capacity ∧ c.advise_size_increase src bytes = c.advised bytes) ∨
    c.capacity < (c.advised bytes).data_size ∧ ∃ front back, (c.advised bytes).queue = front ++ back ∧
      Evicts src (c.advised bytes).target_size (c.advised bytes) front back (c.advise_size_increase src bytes) := by
  by_cases hsize : c.capacity < (c.advised bytes).data_size
  · have perm : (c.advised bytes).clean_up_list.Perm (c.advised bytes).items :=
      (List.mergeSort_perm _ _).trans (List.reverse_perm _)
    have nodup : ((c.advised bytes).queue.map (·.address)).Nodup :=
      ((perm.map (·.address)).nodup_iff.mpr hs.nodup).sublist (List.filter_sublist.map _)
    rw [advise_eq_evict hsize]
    exact .inr ⟨hsize, hs.evicts (fun x hx => (mem_queue.mp hx).1) nodup fun x hx => (mem_queue.mp hx).2⟩
  · exact .inl ⟨UInt32.not_lt.mp hsize, if_neg hsize⟩

section Evicts

variable {front back : List (data_item Data Tag HashSize)} {c' : cache Data Tag Query HashSize}

omit [BEq Tag] [BEq Query] in
theorem nodup_queue (h : (c.items.map (·.address)).Nodup) : c.queue.Nodup := by
  have perm : c.clean_up_list.Perm c.items := (List.mergeSort_perm _ _).trans (List.reverse_perm _)
  exact (perm.nodup_iff.mpr (h.of_map _)).filter _

/-- What is evicted are the items in front. -/
theorem Evicts.evicted_iff (hs : c.Sound src) (h : Evicts src target c front back c') :
    it ∈ c.items ∧ it ∉ c'.items ↔ it ∈ front := by
  have nodup : (front ++ c'.items).Nodup := h.items.nodup_iff.mp (hs.nodup.of_map _)
  constructor
  · rintro ⟨hit, hgone⟩
    exact (List.mem_append.mp (h.items.mem_iff.mp hit)).resolve_right hgone
  · intro hit
    exact ⟨h.items.mem_iff.mpr (List.mem_append_left _ hit), fun hmem =>
      (List.nodup_append.mp nodup).2.2 it hit it hmem rfl⟩

/-- The items that survive and are not locked are those behind. -/
theorem Evicts.survives_iff (hs : c.Sound src) (hqueue : c.queue = front ++ back)
    (h : Evicts src target c front back c') : it ∈ c'.items ∧ it.locked = false ↔ it ∈ back := by
  have disjoint : it ∈ front → it ∉ back := fun hfront hback =>
    (List.nodup_append.mp (hqueue ▸ nodup_queue hs.nodup)).2.2 it hfront it hback rfl
  have hitems : it ∈ c.items ∧ it.locked = false ↔ it ∈ front ∨ it ∈ back := by
    rw [← mem_queue, hqueue, List.mem_append]
  constructor
  · rintro ⟨hit, hlocked⟩
    have hmem : it ∈ c.items := h.items.mem_iff.mpr (List.mem_append_right _ hit)
    refine (hitems.mp ⟨hmem, hlocked⟩).resolve_left fun hfront => ?_
    exact ((h.evicted_iff hs).mpr hfront).2 hit
  · intro hback
    obtain ⟨hmem, hlocked⟩ := hitems.mpr (.inr hback)
    refine ⟨?_, hlocked⟩
    by_contra hgone
    exact disjoint ((h.evicted_iff hs).mp ⟨hmem, hgone⟩) hback

end Evicts

/-! ### The oldest items first -/

/-- **No item that survives is older** than one that was evicted. -/
def EvictsOldest (src : Source Data Tag Query HashSize) (c : cache Data Tag Query HashSize) (bytes : UInt32) : Prop :=
  ∀ e ∈ c.items, e.locked = false → e ∉ (c.advise_size_increase src bytes).items →
    ∀ s ∈ (c.advise_size_increase src bytes).items, s.locked = false → ¬ s.last_access < e.last_access

theorem evictsOldest_iff_of_evicts {front back : List (data_item Data Tag HashSize)} (hs : (c.advised bytes).Sound src)
    (hqueue : (c.advised bytes).queue = front ++ back)
    (h : Evicts src target (c.advised bytes) front back (c.advise_size_increase src bytes)) :
    EvictsOldest src c bytes ↔ ∀ e ∈ front, ∀ s ∈ back, e.last_access = s.last_access := by
  have sorted := hqueue ▸ pairwise_queue (c := c.advised bytes)
  have newer : ∀ e ∈ front, ∀ s ∈ back, s.last_access ≤ e.last_access := fun e he s hs =>
    (List.pairwise_append.mp sorted).2.2 e he s hs
  constructor
  · intro holdest e he s hs'
    obtain ⟨hitem, hgone⟩ := (h.evicted_iff hs).mpr he
    obtain ⟨hsurvives, hlocked⟩ := (h.survives_iff hs hqueue).mpr hs'
    have he_locked := (mem_queue.mp (hqueue ▸ List.mem_append_left _ he)).2
    exact le_antisymm (not_lt.mp (holdest e hitem he_locked hgone s hsurvives hlocked)) (newer e he s hs')
  · intro hequal e hitem _ hgone s hsurvives hlocked
    have he := (h.evicted_iff hs).mp ⟨hitem, hgone⟩
    have hs' := (h.survives_iff hs hqueue).mp ⟨hsurvives, hlocked⟩
    exact not_lt.mpr (hequal e he s hs').le

/-- **The eviction order**: when the size that is advised has been counted in, no item that survives is older than
one that was evicted if and only if one of four things is the case. -/
theorem evicts_oldest_iff (hs : (c.advised bytes).Sound src) : EvictsOldest src c bytes ↔
    -- the capacity is not exceeded
    (c.advised bytes).data_size ≤ c.capacity ∨
    -- the size is not above the target
    (c.advised bytes).data_size ≤ (c.advised bytes).target_size ∨
    -- without all items but the last, the size is still above the target
    (∀ pre it post, (c.advised bytes).queue = pre ++ it :: post →
      (c.advised bytes).target_size < remaining src (c.advised bytes).data_size pre) ∨
    -- the items have one time of access
    ∀ a ∈ (c.advised bytes).queue, ∀ b ∈ (c.advised bytes).queue, a.last_access = b.last_access := by
  rcases hs.advise_cases with ⟨hfits, heq⟩ | ⟨hover, front, back, hqueue, h⟩
  · refine iff_of_true (fun e hitem _ hgone => ?_) (.inl hfits)
    rw [heq] at hgone
    exact absurd hitem hgone
  · rw [evictsOldest_iff_of_evicts hs hqueue h]
    constructor
    · intro hequal
      refine .inr ?_
      cases front with
      | nil =>
        cases back with
        | nil => exact .inr (.inl fun pre it post hsplit => by simp [hqueue] at hsplit)
        | cons x back => exact .inl (h.stop.resolve_left (List.cons_ne_nil _ _))
      | cons e front =>
        cases back with
        | nil =>
          rw [List.append_nil] at hqueue
          exact .inr (.inl fun pre it post hsplit => h.above pre it post (hqueue ▸ hsplit))
        | cons s back =>
          -- the times of the items in front and of those behind are the same
          refine .inr (.inr fun a ha b hb => ?_)
          have htime : ∀ x ∈ (c.advised bytes).queue, x.last_access = s.last_access := by
            intro x hx
            rw [hqueue] at hx
            rcases List.mem_append.mp hx with hfront | hback
            · exact hequal x hfront s List.mem_cons_self
            · exact (hequal e List.mem_cons_self x hback).symm.trans (hequal e List.mem_cons_self s List.mem_cons_self)
          exact (htime a ha).trans (htime b hb).symm
    · rintro (hfits | hlow | hall | hequal) e he s hs'
      · exact absurd hfits (UInt32.not_le.mpr hover)
      · obtain ⟨x, front, rfl⟩ := List.exists_cons_of_ne_nil (List.ne_nil_of_mem he)
        exact absurd (h.above [] x front rfl) (UInt32.not_lt.mpr hlow)
      · obtain ⟨y, back, rfl⟩ := List.exists_cons_of_ne_nil (List.ne_nil_of_mem hs')
        exact absurd (hall front y back hqueue) (UInt32.not_lt.mpr (h.stop.resolve_left (List.cons_ne_nil _ _)))
      · exact hequal e (hqueue ▸ List.mem_append_left _ he) s (hqueue ▸ List.mem_append_right _ hs')

/-! ### The size that is reached -/

/-- **The capacity is respected**, or nothing is left to evict. -/
def Bounded (src : Source Data Tag Query HashSize) (c : cache Data Tag Query HashSize) (bytes : UInt32) : Prop :=
  (c.advise_size_increase src bytes).data_size ≤ c.capacity ∨
    ∀ it ∈ (c.advise_size_increase src bytes).items, it.locked = true

/-- The sizes of some items. -/
def sizes (src : Source Data Tag Query HashSize) (items : List (data_item Data Tag HashSize)) : ℕ :=
  (items.map fun it => (src.get_size it.data).toNat).sum

theorem toNat_remaining (h : sizes src items ≤ size.toNat) :
    (remaining src size items).toNat = size.toNat - sizes src items := by
  induction items generalizing size with
  | nil => simp [remaining, sizes]
  | cons it items ih =>
    rw [sizes, List.map_cons, List.sum_cons, ← sizes] at h ⊢
    have hle : src.get_size it.data ≤ size := UInt32.le_iff_toNat_le.mpr (by omega)
    have hsub : (size - src.get_size it.data).toNat = size.toNat - (src.get_size it.data).toNat :=
      UInt32.toNat_sub_of_le _ _ hle
    rw [remaining, List.foldl_cons, ← remaining, ih (by omega), hsub]
    omega

theorem sizes_le_of_initial {pre : List (data_item Data Tag HashSize)} (h : pre <+: items) :
    sizes src pre ≤ sizes src items := by
  obtain ⟨rest, rfl⟩ := h
  rw [sizes, sizes, List.map_append, List.sum_append]
  exact Nat.le_add_right _ _

/-- All that can be evicted is counted. -/
theorem Sound.sizes_queue_le (hs : c.Sound src) (hfits : c.total src < 2 ^ 32) :
    sizes src c.queue ≤ c.data_size.toNat := by
  have perm : c.clean_up_list.Perm c.items := (List.mergeSort_perm _ _).trans (List.reverse_perm _)
  have hsub : (c.queue.map fun it => (src.get_size it.data).toNat).Sublist
      (c.clean_up_list.map fun it => (src.get_size it.data).toNat) := List.filter_sublist.map _
  rw [hs.size, UInt32.toNat_ofNat', Nat.mod_eq_of_lt hfits]
  exact (hsub.sum_le_sum fun _ _ => Nat.zero_le _).trans (perm.map _).sum_eq.le

/-- The more items are gone, the smaller is the size. -/
theorem remaining_anti {pre : List (data_item Data Tag HashSize)} (hpre : pre <+: items)
    (h : sizes src items ≤ size.toNat) : remaining src size items ≤ remaining src size pre := by
  have hle : sizes src pre ≤ sizes src items := sizes_le_of_initial hpre
  rw [UInt32.le_iff_toNat_le, toNat_remaining h, toNat_remaining (hle.trans h)]
  exact Nat.sub_le_sub_left hle _

theorem bounded_iff_of_evicts {front back : List (data_item Data Tag HashSize)} (hs : (c.advised bytes).Sound src)
    (hqueue : (c.advised bytes).queue = front ++ back)
    (h : Evicts src target (c.advised bytes) front back (c.advise_size_increase src bytes)) :
    Bounded src c bytes ↔ remaining src (c.advised bytes).data_size front ≤ c.capacity ∨ back = [] := by
  rw [Bounded, h.size]
  refine or_congr_right ⟨fun hall => ?_, fun hback it hit => ?_⟩
  · refine List.eq_nil_iff_forall_not_mem.mpr fun it hit => ?_
    obtain ⟨hmem, hlocked⟩ := (h.survives_iff hs hqueue).mpr hit
    rw [hall it hmem] at hlocked
    cases hlocked
  · by_contra hlocked
    have hmem := (h.survives_iff hs hqueue).mp ⟨hit, Bool.eq_false_of_not_eq_true hlocked⟩
    rw [hback] at hmem
    cases hmem

/-- **The capacity is respected** if and only if, as long as there is something to evict, a size above the capacity
is above the target. -/
theorem bounded_iff (hs : (c.advised bytes).Sound src) (hfits : c.total src < 2 ^ 32) : Bounded src c bytes ↔
    ∀ pre it post, (c.advised bytes).queue = pre ++ it :: post →
      c.capacity < remaining src (c.advised bytes).data_size pre →
        (c.advised bytes).target_size < remaining src (c.advised bytes).data_size pre := by
  have hsizes : sizes src (c.advised bytes).queue ≤ (c.advised bytes).data_size.toNat := hs.sizes_queue_le hfits
  have hinitial : ∀ pre, pre <+: (c.advised bytes).queue → sizes src pre ≤ (c.advised bytes).data_size.toNat :=
    fun pre hpre => (sizes_le_of_initial hpre).trans hsizes
  rcases hs.advise_cases with ⟨hle, heq⟩ | ⟨hover, front, back, hqueue, h⟩
  · refine iff_of_true (.inl (heq ▸ hle)) fun pre it post hsplit habove => ?_
    have hanti := remaining_anti List.nil_prefix (hinitial pre (hsplit ▸ List.prefix_append pre _))
    exact absurd habove (UInt32.not_lt.mpr (UInt32.le_trans hanti hle))
  · rw [bounded_iff_of_evicts hs hqueue h]
    constructor
    · intro hbounded pre it post hsplit habove
      -- the eviction goes on beyond these items, or it has stopped before
      rcases List.append_eq_append_iff.mp (hqueue.symm.trans hsplit) with ⟨rest, rfl, hback⟩ | ⟨rest, rfl, hpost⟩
      · have hanti := remaining_anti (List.prefix_append front rest)
          (hinitial (front ++ rest) (hsplit ▸ List.prefix_append _ _))
        refine absurd (UInt32.lt_of_lt_of_le habove hanti) (UInt32.not_lt.mpr (hbounded.resolve_right ?_))
        rw [hback]
        exact List.append_ne_nil_of_right_ne_nil _ (List.cons_ne_nil _ _)
      · cases rest with
        | nil =>
          rw [List.append_nil] at hbounded
          refine absurd habove (UInt32.not_lt.mpr (hbounded.resolve_right ?_))
          rw [← List.nil_append back, ← hpost]
          exact List.cons_ne_nil _ _
        | cons x rest => exact h.above pre x rest rfl
    · intro hcond
      cases back with
      | nil => exact .inr rfl
      | cons it back =>
        refine .inl (UInt32.not_lt.mp fun habove => ?_)
        exact absurd (hcond front it back hqueue habove)
          (UInt32.not_lt.mpr (h.stop.resolve_left (List.cons_ne_nil _ _)))

omit [BEq Tag] [BEq Query] in
/-- Up to `2^31/10` bytes nothing overflows, and a cache that is over its capacity aims at `0`. -/
theorem target_size_eq_zero (hsmall : c.data_size.toNat ≤ 214748364) (hover : c.capacity < c.data_size) :
    c.target_size = 0 := by
  have toInt_toInt32 : ∀ a : UInt32, a.toNat < 2 ^ 31 → a.toInt32.toInt = a.toNat := fun a ha =>
    BitVec.toInt_eq_toNat_of_lt (x := a.toBitVec) (by rw [UInt32.toNat_toBitVec]; omega)
  rw [UInt32.lt_iff_toNat_lt] at hover
  have hten : (10 : Int32).toInt = 10 := rfl
  have hbytes : (10 * (c.data_size.toNat : ℤ)).bmod (2 ^ 32) = 10 * c.data_size.toNat :=
    Int.bmod_eq_of_le (by omega) (by omega)
  have hneg : c.capacity.toInt32 - 10 * c.data_size.toInt32 ≤ 0 := by
    rw [Int32.le_iff_toInt_le, Int32.toInt_sub, Int32.toInt_mul, toInt_toInt32 _ (by omega),
      toInt_toInt32 _ (by omega), hten, hbytes, Int.bmod_eq_of_le (by omega) (by omega)]
    have hzero : (0 : Int32).toInt = 0 := rfl
    omega
  have hmax : max (c.capacity.toInt32 - 10 * c.data_size.toInt32) 0 = 0 := if_pos hneg
  rw [target_size, hmax]
  rfl

/-- **Small caches** are respected. -/
theorem bounded_of_small (hs : (c.advised bytes).Sound src) (hfits : c.total src < 2 ^ 32)
    (hsmall : (c.advised bytes).data_size.toNat ≤ 214748364) : Bounded src c bytes := by
  rcases hs.advise_cases with ⟨hle, heq⟩ | ⟨hover, -⟩
  · exact .inl (heq ▸ hle)
  · refine (bounded_iff hs hfits).mpr fun _ _ _ _ habove => ?_
    rw [target_size_eq_zero hsmall hover]
    exact UInt32.lt_of_le_of_lt (UInt32.zero_le) habove

end cache

/-! ### Three lookups -/

/-- An item has as many bytes as its tag says. -/
def counted : Source ℕ ℕ ℕ 2 where
  hash := fun t => Fin.ofNat 2 t
  pull := fun _ _ t => t
  sizeof_container_element := 1
  elementsof_container := fun d => UInt32.ofNat d
  pull_tag := fun _ _ _ _ h => eq_of_beq h
  pull_query := fun _ _ _ _ _ => rfl

/-- A cache with a table for a file and a group for a query. -/
def prepared (cap : UInt32) : cache ℕ ℕ ℕ 2 := ((cache.create cap).get_table_handle "file").1.push_group 0 7

/-- Two items have been looked up, one after the other. -/
def two_lookups (cap : UInt32) (a b : ℕ) : Option (cache ℕ ℕ ℕ 2) :=
  ((prepared cap).lookup_tag counted ⟨0, 1⟩ a 1 2).bind fun r₁ =>
    (r₁.1.lookup_tag counted ⟨0, 1⟩ b 3 4).map (·.1)

/-- An item with an even tag. -/
def even_item (address size : ℕ) (last_access : ℤ) (locked : Bool) : data_item ℕ ℕ 2 :=
  ⟨address, size, size, ⟨⟨0, 1⟩, 0⟩, last_access, locked⟩

theorem sound_two_lookups {cap : UInt32} {a b : ℕ} {c : cache ℕ ℕ ℕ 2} (h : two_lookups cap a b = some c) :
    c.Sound counted := by
  obtain ⟨⟨c₁, r₁⟩, h₁, h⟩ := Option.bind_eq_some_iff.mp h
  obtain ⟨⟨c₂, r₂⟩, h₂, rfl⟩ := Option.map_eq_some_iff.mp h
  have start : (sessions counted cap).Reachable ⟨.create cap, [], []⟩ := .of_init rfl
  have table := start.step (l := Call.get_table_handle "file") (.get_table_handle rfl)
  have group := table.step (l := Call.get_serial_handle 0 7) (.get_serial_handle List.mem_cons_self rfl)
  have first := group.step (.lookup_tag List.mem_cons_self h₁)
  have second := first.step (.lookup_tag List.mem_cons_self h₂)
  have valid := System.Invariant.reachable (I := Valid counted) ⟨by rintro _ rfl; exact valid_create cap,
    fun s l s' h hs => (h.step hs).1⟩ second
  exact valid.sound

/-- A third item has been put in front of its line. -/
def third (c : cache ℕ ℕ ℕ 2) (n : ℕ) : cache ℕ ℕ ℕ 2 := c.push_front (even_item c.next n 5 true)

/-- The size of a third item is advised. -/
theorem sound_third_item {cap : UInt32} {a b n : ℕ} {c : cache ℕ ℕ ℕ 2} (h : two_lookups cap a b = some c)
    (hg : (c.find_group ⟨0, 1⟩).isSome) :
    ((third c n).advised (UInt32.ofNat n)).Sound counted := by
  obtain ⟨⟨t, g⟩, hg⟩ := Option.isSome_iff_exists.mp hg
  have hsize : counted.get_size n = UInt32.ofNat n := UInt32.one_mul _
  have hspec := ((sound_two_lookups h).push_front_spec (even_item c.next n 5 true) hg rfl rfl).2.1
  exact hsize ▸ hspec

/-- The items of the cache, when two items have been looked up before a third. -/
theorem queue_third_item {c : cache ℕ ℕ ℕ 2} {old new third : data_item ℕ ℕ 2} (hitems : c.items = [third, new, old])
    (hold : old.locked = false) (hnew : new.locked = false) (hthird : third.locked = true)
    (h₁ : old.last_access < new.last_access) (h₂ : new.last_access < third.last_access) : c.queue = [new, old] := by
  have hsorted : [old, new, third].mergeSort (fun a b => decide (b.last_access ≤ a.last_access)) =
      [third, new, old] := by
    simp [List.mergeSort, List.MergeSort.Internal.splitInTwo, h₁.not_ge, h₂.not_ge]
  rw [cache.queue, cache.clean_up_list, hitems]
  simp [hsorted, hold, hnew, hthird]

/-- A small cache evicts all that it can. -/
theorem evicts_oldest_small : ∃ c, two_lookups 100 60 20 = some c ∧ cache.EvictsOldest counted (third c 30) 30 := by
  let old := even_item 2 60 2 false
  let new := even_item 3 20 4 false
  have state : ((two_lookups 100 60 20).any fun c =>
      (c.find_group ⟨0, 1⟩).isSome ∧ (third c 30).items = [even_item 4 30 5 true, new, old] ∧
        ∀ pre ∈ [[], [new]], ((third c 30).advised 30).target_size <
          cache.remaining counted ((third c 30).advised 30).data_size pre) = true := by decide +kernel
  obtain ⟨c, hc, hstate⟩ := (Option.any_eq_true _ _).mp state
  obtain ⟨hg, hitems, habove⟩ := of_decide_eq_true hstate
  have hqueue : ((third c 30).advised 30).queue = [new, old] :=
    queue_third_item ((cache.items_advised _ _).trans hitems) rfl rfl rfl (by decide) (by decide)
  refine ⟨c, hc, (cache.evicts_oldest_iff (sound_third_item hc hg)).mpr (.inr (.inr (.inl ?_)))⟩
  intro pre it post hsplit
  refine habove pre ?_
  replace hsplit : [new, old] = pre ++ it :: post := hqueue.symm.trans hsplit
  match pre with
  | [] => exact List.mem_cons_self
  | [x] => rw [(List.cons.inj hsplit).1]; exact List.mem_cons_of_mem _ List.mem_cons_self
  | x :: y :: pre => simpa using congrArg List.length hsplit

/-- It keeps within its capacity. -/
theorem bounded_small : ∃ c, two_lookups 100 60 20 = some c ∧ cache.Bounded counted (third c 30) 30 := by
  have state : ((two_lookups 100 60 20).any fun c =>
      (c.find_group ⟨0, 1⟩).isSome ∧ (third c 30).total counted < 2 ^ 32 ∧
        ((third c 30).advised 30).target_size ≤ (third c 30).capacity) = true := by decide +kernel
  obtain ⟨c, hc, hstate⟩ := (Option.any_eq_true _ _).mp state
  obtain ⟨hg, hfits, htarget⟩ := of_decide_eq_true hstate
  refine ⟨c, hc, (cache.bounded_iff (sound_third_item hc hg) hfits).mpr fun _ _ _ _ habove => ?_⟩
  exact UInt32.lt_of_le_of_lt htarget habove

/-- In front of a new item of 500 bytes there are a large item and an item of 1000 bytes, which is older. The large item
is evicted, the older one is not. -/
theorem newest_evicted_first : ∃ c, two_lookups 4294966296 1000 4294965296 = some c ∧
    ¬ cache.EvictsOldest counted (third c 500) 500 := by
  let old := even_item 2 1000 2 false
  let new := even_item 3 4294965296 4 false
  have state : ((two_lookups 4294966296 1000 4294965296).any fun c =>
      (third c 500).items = [even_item 4 500 5 true, new, old] ∧
        (third c 500).capacity < ((third c 500).advised 500).data_size ∧
        old ∈ (cache.evict counted ((third c 500).advised 500).target_size ((third c 500).advised 500)
          [new, old]).items ∧
        new ∉ (cache.evict counted ((third c 500).advised 500).target_size ((third c 500).advised 500)
          [new, old]).items) = true := by decide +kernel
  obtain ⟨c, hc, hstate⟩ := (Option.any_eq_true _ _).mp state
  obtain ⟨hitems, hover, hsurvives, hgone⟩ := of_decide_eq_true hstate
  have hqueue : ((third c 500).advised 500).queue = [new, old] :=
    queue_third_item ((cache.items_advised _ _).trans hitems) rfl rfl rfl (by decide) (by decide)
  refine ⟨c, hc, fun h => ?_⟩
  rw [cache.EvictsOldest, cache.advise_eq_evict hover, hqueue] at h
  exact h new (hitems ▸ List.mem_cons_of_mem _ List.mem_cons_self) rfl hgone old hsurvives rfl (by decide)

/-- 400000001 bytes are too many for the capacity, but the target is larger still: nothing is evicted. -/
theorem capacity_exceeded : ∃ c, two_lookups 400000000 399999000 600 = some c ∧
    ¬ cache.Bounded counted (third c 401) 401 := by
  let old := even_item 2 399999000 2 false
  have state : ((two_lookups 400000000 399999000 600).any fun c =>
      (third c 401).capacity < ((third c 401).advised 401).data_size ∧ old ∈ ((third c 401).advised 401).items ∧
        ¬ ((third c 401).advised 401).target_size < ((third c 401).advised 401).data_size) = true := by decide +kernel
  obtain ⟨c, hc, hstate⟩ := (Option.any_eq_true _ _).mp state
  obtain ⟨hover, hold, htarget⟩ := of_decide_eq_true hstate
  refine ⟨c, hc, fun h => ?_⟩
  rw [cache.Bounded, cache.advise_eq_evict hover, cache.evict_eq_self htarget] at h
  rcases h with hle | hlocked
  · exact absurd hover (UInt32.not_lt.mpr hle)
  · exact Bool.false_ne_true (hlocked old hold)

end CppTransport.Runtime.Linecache
