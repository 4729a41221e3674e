import CppTransport.Library.KeyedRows
import CppTransport.Library.Transition
import CppTransport.Runtime.IntegrationBatcher
import Mathlib.Algebra.Group.Prod
import Mathlib.Algebra.BigOperators.Group.Finset.Piecewise
import Mathlib.Tactic.Abel

/-!
# Accumulated fNL sums

The contributions to an fNL integral are added up three times. A batcher keeps one item for each
time serial number and replaces it by the sum when another is pushed; a flush merges the batch
into the current temporary container through two temporary tables; and the master merges the
containers that were sent to it into the principal container, in whatever order they are taken.

All three are the same operation on tables with a primary key, and it adds the `amount` of one
table to that of the other (`keyed_merge`). So the amounts of the batches, of the containers in
flight and of the principal container add up to the amount of what was pushed, whatever the
batchers and the master do (`accounted_of_reachable`).
-/

namespace CppTransport.Runtime

open Library Library.Rows

/-- `fNL_item`; the rows of an fNL table have the same columns. -/
structure fNL_item (K : Type*) where
  /-- Time serial number for this configuration. -/
  time_serial : ℕ
  /-- bispectrum.bispectrum -/
  BB : K
  /-- bispectrum.template -/
  BT : K
  /-- template.template -/
  TT : K
deriving DecidableEq

/-- What a batcher does with its container after a flush. -/
inductive replacement_action where
  /-- A new container is opened. -/
  | action_replace
  /-- The batcher is left without one. -/
  | action_close
deriving DecidableEq

namespace FNL

variable {K : Type*} [AddCommMonoid K]

/-! ### The statements -/

/-- A row of the second temporary table: a value and `COALESCE` of the one it is joined with. -/
def coalesced (new : fNL_item K) (old : Option (fNL_item K)) : fNL_item K where
  time_serial := new.time_serial
  BB := new.BB + (old.map (·.BB)).getD 0
  BT := new.BT + (old.map (·.BT)).getD 0
  TT := new.TT + (old.map (·.TT)).getD 0

/-- `write_fNL`: the batch is inserted into an empty temporary table, whose join with the fNL table
replaces rows of the latter. -/
def write_fNL (batch table : List (fNL_item K)) : Option (List (fNL_item K)) := do
  let inserted ← batch.foldlM (insert fNL_item.time_serial) []
  return merge fNL_item.time_serial coalesced inserted table

/-- `aggregate_fNL`: the same with the table of a temporary container. -/
def aggregate_fNL (temp_ctr principal : List (fNL_item K)) : List (fNL_item K) :=
  merge fNL_item.time_serial coalesced temp_ctr principal

end FNL

/-! ### Batchers -/

/-- `fNL_batcher`. -/
structure fNL_batcher (K : Type*) where
  /-- Capacity available. -/
  capacity : ℕ
  /-- `sizeof(number)`. -/
  sizeof_number : ℕ
  /-- Flushing mode. -/
  mode : FlushMode
  /-- Needs flushing at next opportunity? -/
  flush_due : Bool
  /-- fNL cache, in the order of the time serial numbers. -/
  fNL_batch : List (fNL_item K)
  /-- The fNL table of the current container, while there is one. -/
  container : Option (List (fNL_item K))
deriving DecidableEq

namespace fNL_batcher

open FNL

variable {K : Type*} [AddCommMonoid K] (b : fNL_batcher K)

/-- `storage`. -/
def storage : ℕ := (2 * 4 + b.sizeof_number) * b.fNL_batch.length

/-- `flush`, with the container that goes to the master. Nothing if a statement fails or if the
container has been closed. -/
def flush (action : replacement_action) : Option (fNL_batcher K × List (List (fNL_item K))) := do
  let table ← b.container
  let written ← write_fNL b.fNL_batch table
  return ({ b with
    fNL_batch := []
    container := match action with
      | .action_replace => some []
      | .action_close => none }, [written])

/-- `check_for_flush`. -/
def check_for_flush : Option (fNL_batcher K × List (List (fNL_item K))) :=
  if b.storage > b.capacity then
    match b.mode with
    | .flush_immediate => b.flush .action_replace
    | .flush_delayed => some ({ b with flush_due := true }, [])
  else some (b, [])

/-- The cache after an item was pushed: it takes the place of the one with its serial number. -/
def accumulate (batch : List (fNL_item K)) (item : fNL_item K) : List (fNL_item K) :=
  match batch.find? (fun t => t.time_serial = item.time_serial) with
  | some t =>
    emplaceBySerial fNL_item.time_serial
      { item with BB := item.BB + t.BB, BT := item.BT + t.BT, TT := item.TT + t.TT }
      (batch.eraseP fun t => t.time_serial = item.time_serial)
  | none => emplaceBySerial fNL_item.time_serial item batch

/-- `push_fNL`. -/
def push_fNL (time_serial : ℕ) (BB BT TT : K) : Option (fNL_batcher K × List (List (fNL_item K))) :=
  { b with fNL_batch := accumulate b.fNL_batch ⟨time_serial, BB, BT, TT⟩ }.check_for_flush

/-- `report_finished_item`, with whether the checkpoint interval has expired. -/
def report_finished_item (expired : Bool) : Option (fNL_batcher K × List (List (fNL_item K))) :=
  if b.flush_due then { b with flush_due := false }.flush .action_replace
  else if expired then b.flush .action_replace else some (b, [])

/-- `close`. -/
def close : Option (fNL_batcher K × List (List (fNL_item K))) := b.flush .action_close

end fNL_batcher

/-! ### Workers and master -/

/-- The batchers of all workers and the master, with a record of what was pushed. -/
structure fNL_run (W K : Type*) where
  /-- The batcher of each worker. -/
  batcher : W → fNL_batcher K
  /-- Containers sent to the master and not aggregated yet. -/
  in_flight : List (List (fNL_item K))
  /-- The fNL table of the principal container. -/
  principal : List (fNL_item K)
  /-- All contributions. -/
  pushed : List (fNL_item K)

/-- What a worker asks of its batcher. -/
inductive fNL_call (K : Type*) where
  | push_fNL (time_serial : ℕ) (BB BT TT : K)
  | set_flush_mode (mode : FlushMode)
  | report_finished_item (expired : Bool)
  | close

/-- What happens next. -/
inductive fNL_event (W K : Type*) where
  /-- A worker calls its batcher. -/
  | call (w : W) (c : fNL_call K)
  /-- The master takes a container and aggregates it. -/
  | aggregate (ctr : ℕ)

namespace fNL_call

variable {K : Type*} [AddCommMonoid K]

/-- The batcher after a call, and the containers that were sent. -/
def run (b : fNL_batcher K) : fNL_call K → Option (fNL_batcher K × List (List (fNL_item K)))
  | push_fNL time_serial BB BT TT => b.push_fNL time_serial BB BT TT
  | set_flush_mode mode => some ({ b with mode := mode }, [])
  | report_finished_item expired => b.report_finished_item expired
  | close => b.close

/-- The contributions of a call. -/
def contributions : fNL_call K → List (fNL_item K)
  | push_fNL time_serial BB BT TT => [⟨time_serial, BB, BT, TT⟩]
  | _ => []

end fNL_call

namespace fNL_run

variable {W K : Type*} [DecidableEq W] [AddCommMonoid K]

/-- One step. -/
def next (s : fNL_run W K) : fNL_event W K → Option (fNL_run W K)
  | .call w c => (c.run (s.batcher w)).map fun (b, sent) => { s with
      batcher := Function.update s.batcher w b
      in_flight := s.in_flight ++ sent
      pushed := c.contributions ++ s.pushed }
  | .aggregate i => s.in_flight[i]?.map fun temp_ctr => { s with
      in_flight := s.in_flight.eraseIdx i
      principal := FNL.aggregate_fNL temp_ctr s.principal }

/-- Before anything was pushed: empty tables, any capacities. -/
def fresh (s : fNL_run W K) : Prop :=
  (∀ w, (s.batcher w).fNL_batch = [] ∧ (s.batcher w).container = some []) ∧ s.in_flight = [] ∧
    s.principal = [] ∧ s.pushed = []

/-- The runs of an fNL task with the workers `W`. -/
def system (W K : Type*) [DecidableEq W] [AddCommMonoid K] : System (fNL_run W K) (fNL_event W K) :=
  System.ofNext fresh next

end fNL_run

/-! ### Amounts -/

namespace FNL

variable {K : Type*} [AddCommMonoid K]

/-- The three sums of an item. -/
def values (it : fNL_item K) : K × K × K := (it.BB, it.BT, it.TT)

/-- What the items of a table with a time serial number add up to. -/
abbrev total : List (fNL_item K) → ℕ → WithZero (K × K × K) := Rows.amount fNL_item.time_serial values

/-- A table or batch has one item for each time serial number. -/
abbrev OnePerTime : List (fNL_item K) → Prop := Rows.Keyed fNL_item.time_serial

theorem values_coalesced (new : fNL_item K) (old : Option (fNL_item K)) :
    (values (coalesced new old) : WithZero (K × K × K)) =
      (values new : WithZero (K × K × K)) + old.elim 0 fun s => ↑(values s) := by
  cases old with
  | none => simp [values, coalesced]
  | some s => exact WithZero.coe_add (values new) (values s)

variable {batch table : List (fNL_item K)}

theorem aggregate_fNL_spec (hb : OnePerTime batch) (ht : OnePerTime table) :
    OnePerTime (aggregate_fNL batch table) ∧ ∀ k, total (aggregate_fNL batch table) k = total batch k + total table k :=
  keyed_merge (fun _ _ => rfl) values_coalesced hb ht

/-- No statement of `write_fNL` fails: the batch has no two items for one time. -/
theorem write_fNL_eq (hb : OnePerTime batch) : write_fNL batch table = some (aggregate_fNL batch table) := by
  rw [write_fNL, insert_all_eq_some (t := []) hb]
  rfl

omit [AddCommMonoid K] in
theorem emplaceBySerial_perm {it : fNL_item K} (h : ∀ x ∈ batch, x.time_serial ≠ it.time_serial) :
    (emplaceBySerial fNL_item.time_serial it batch).Perm (it :: batch) := by
  have hfresh : batch.any (fun x => x.time_serial = it.time_serial) = false := by simpa using h
  rw [emplaceBySerial, hfresh, if_neg (by simp)]
  exact List.perm_middle.trans (List.Perm.of_eq (congrArg _ List.takeWhile_append_dropWhile))

/-- Pushing an item adds its values to the amount of its time. -/
theorem accumulate_spec (it : fNL_item K) (hb : OnePerTime batch) :
    OnePerTime (fNL_batcher.accumulate batch it) ∧
      ∀ k, total (fNL_batcher.accumulate batch it) k = total [it] k + total batch k := by
  unfold fNL_batcher.accumulate
  cases hf : batch.find? (fun t => t.time_serial = it.time_serial) with
  | none =>
    have hnot : ∀ x ∈ batch, x.time_serial ≠ it.time_serial := by simpa using List.find?_eq_none.mp hf
    have hperm := emplaceBySerial_perm hnot
    refine ⟨Rows.Keyed.perm (keyed_cons.mpr ⟨hnot, hb⟩) hperm.symm, fun k => ?_⟩
    rw [total, amount_perm hperm, ← List.singleton_append, amount_append]
  | some t =>
    obtain ⟨ht, hkey⟩ := (find?_key_eq_some_iff hb).mp hf
    -- what is left when the old item is erased
    obtain ⟨a, l₁, l₂, -, ha, hbatch, hrest⟩ := List.exists_of_eraseP
      (p := fun x : fNL_item K => decide (x.time_serial = it.time_serial)) ht (by simpa using hkey)
    have hat : a = t := by
      refine List.inj_on_of_nodup_map hb (by simp [hbatch]) ht ?_
      rw [hkey]
      simpa using ha
    have hperm : batch.Perm (t :: (l₁ ++ l₂)) := by
      rw [hbatch, hat]
      exact List.perm_middle
    obtain ⟨hfresh, hkeyed⟩ := keyed_cons.mp (Rows.Keyed.perm hb hperm)
    have hnot : ∀ x ∈ l₁ ++ l₂, x.time_serial ≠ it.time_serial := fun x hx => hkey ▸ hfresh x hx
    simp only [hrest]
    have hnew : (emplaceBySerial fNL_item.time_serial
        { it with BB := it.BB + t.BB, BT := it.BT + t.BT, TT := it.TT + t.TT } (l₁ ++ l₂)).Perm _ :=
      emplaceBySerial_perm hnot
    refine ⟨Rows.Keyed.perm (by exact keyed_cons.mpr ⟨hnot, hkeyed⟩) hnew.symm, fun k => ?_⟩
    rw [total, amount_perm hnew, amount_perm hperm, amount_cons, amount_cons, amount_cons, amount_nil, hkey,
      add_zero, ← add_assoc]
    by_cases hk : it.time_serial = k
    · simp only [hk, if_true]
      exact congrArg (· + _) (WithZero.coe_add (values it) (values t))
    · simp [hk]

end FNL

/-! ### What a call does -/

namespace fNL_batcher

open FNL

variable {K : Type*} [AddCommMonoid K]

/-- Between calls a batch has one item for each time, and a container has nothing in it yet. -/
structure Ready (b : fNL_batcher K) : Prop where
  keyed : OnePerTime b.fNL_batch
  container : ∀ table, b.container = some table → table = []

/-- What one or more contributions turn a batcher into, with the containers sent. -/
structure Accounts (b : fNL_batcher K) (pushed : List (fNL_item K))
    (r : fNL_batcher K × List (List (fNL_item K))) : Prop where
  ready : r.1.Ready
  sent : ∀ c ∈ r.2, OnePerTime c
  amounts : ∀ k, total r.1.fNL_batch k + (r.2.map (total · k)).sum = total pushed k + total b.fNL_batch k

variable {b : fNL_batcher K} {r : fNL_batcher K × List (List (fNL_item K))}

/-- No statement of a flush fails. -/
theorem flush_eq (h : b.Ready) (hc : b.container.isSome) (action : replacement_action) :
    b.flush action = some ({ b with
      fNL_batch := []
      container := match action with
        | .action_replace => some []
        | .action_close => none }, [aggregate_fNL b.fNL_batch []]) := by
  obtain ⟨table, htable⟩ := Option.isSome_iff_exists.mp hc
  obtain rfl := h.container _ htable
  simp only [flush, htable, write_fNL_eq h.keyed, Option.bind_eq_bind, Option.bind_some, Option.pure_def]

theorem accounts_flush (h : b.Ready) {action : replacement_action} (hr : b.flush action = some r) :
    b.Accounts [] r := by
  have hc : b.container.isSome := by
    by_contra hnone
    simp [flush, Option.not_isSome_iff_eq_none.mp hnone] at hr
  have hempty : OnePerTime ([] : List (fNL_item K)) := by simp [Rows.Keyed]
  obtain ⟨hkeyed, hamount⟩ := aggregate_fNL_spec h.keyed hempty
  obtain rfl := Option.some.inj ((flush_eq h hc action).symm.trans hr)
  refine ⟨⟨by simp [Rows.Keyed], fun t ht => ?_⟩, by simpa using hkeyed, fun k => by simp [hamount]⟩
  cases action with
  | action_replace => simpa using ht.symm
  | action_close => simp at ht

theorem accounts_check_for_flush (h : b.Ready) (hr : b.check_for_flush = some r) : b.Accounts [] r := by
  unfold check_for_flush at hr
  split_ifs at hr
  · cases hm : b.mode with
    | flush_immediate =>
      rw [hm] at hr
      exact accounts_flush h hr
    | flush_delayed =>
      simp only [hm, Option.some.injEq] at hr
      subst hr
      exact ⟨⟨h.keyed, h.container⟩, by simp, by simp⟩
  · obtain rfl := Option.some.inj hr
    exact ⟨h, by simp, by simp⟩

theorem accounts_report_finished_item (h : b.Ready) {expired : Bool}
    (hr : b.report_finished_item expired = some r) : b.Accounts [] r := by
  unfold report_finished_item at hr
  split_ifs at hr
  · obtain ⟨h₁, h₂, h₃⟩ := accounts_flush (b := { b with flush_due := false }) ⟨h.keyed, h.container⟩ hr
    exact ⟨h₁, h₂, h₃⟩
  · exact accounts_flush h hr
  · obtain rfl := Option.some.inj hr
    exact ⟨h, by simp, by simp⟩

/-- **One call**: what is pushed is in the batch or in a container that is sent. -/
theorem accounts_run (h : b.Ready) {c : fNL_call K} (hr : c.run b = some r) : b.Accounts c.contributions r := by
  cases c with
  | push_fNL ts BB BT TT =>
    obtain ⟨hkeyed, hamount⟩ := accumulate_spec (⟨ts, BB, BT, TT⟩ : fNL_item K) h.keyed
    obtain ⟨h₁, h₂, h₃⟩ := accounts_check_for_flush (b := { b with fNL_batch := accumulate b.fNL_batch ⟨ts, BB, BT, TT⟩ })
      ⟨hkeyed, h.container⟩ hr
    exact ⟨h₁, h₂, fun k => (h₃ k).trans ((zero_add _).trans (hamount k))⟩
  | set_flush_mode mode =>
    obtain rfl := Option.some.inj hr
    exact ⟨⟨h.keyed, h.container⟩, by simp, by simp [fNL_call.contributions]⟩
  | report_finished_item expired => exact accounts_report_finished_item h hr
  | close => exact accounts_flush h (show b.flush .action_close = some r from hr)

/-- A batcher with a container fails in no call. -/
theorem isSome_run (h : b.Ready) (hc : b.container.isSome) (c : fNL_call K) : (c.run b).isSome := by
  cases c with
  | push_fNL ts BB BT TT =>
    have hkeyed := (accumulate_spec (⟨ts, BB, BT, TT⟩ : fNL_item K) h.keyed).1
    simp only [fNL_call.run, push_fNL, check_for_flush]
    split_ifs
    · cases b.mode with
      | flush_immediate =>
        simp only
        rw [flush_eq (by exact ⟨hkeyed, h.container⟩) (by exact hc)]
        rfl
      | flush_delayed => rfl
    · rfl
  | set_flush_mode mode => rfl
  | report_finished_item expired =>
    simp only [fNL_call.run, report_finished_item]
    split_ifs
    · rw [flush_eq (by exact ⟨h.keyed, h.container⟩) (by exact hc)]
      rfl
    · rw [flush_eq h hc]
      rfl
    · rfl
  | close =>
    rw [fNL_call.run, close, flush_eq h hc]
    rfl

end fNL_batcher

/-! ### Runs -/

namespace fNL_run

open FNL

variable {W K : Type*} [DecidableEq W] [Fintype W] [AddCommMonoid K] {s s' : fNL_run W K}

/-- Everything pushed is in exactly one place. -/
structure Accounted (s : fNL_run W K) : Prop where
  ready : ∀ w, (s.batcher w).Ready
  sent : ∀ c ∈ s.in_flight, OnePerTime c
  principal : OnePerTime s.principal
  balance : ∀ k, ∑ w, total (s.batcher w).fNL_batch k + (s.in_flight.map (total · k)).sum + total s.principal k =
    total s.pushed k

/-- The total over the batchers is that of one of them and a rest which it does not change. -/
theorem exists_rest (s : fNL_run W K) (w : W) (k : ℕ) :
    ∃ rest, ∑ v, total (s.batcher v).fNL_batch k = total (s.batcher w).fNL_batch k + rest ∧
      ∀ b, ∑ v, total (Function.update s.batcher w b v).fNL_batch k = total b.fNL_batch k + rest := by
  refine ⟨_, Finset.sum_eq_add_sum_sdiff_singleton_of_mem (Finset.mem_univ w) _, fun b => ?_⟩
  have hupdate : (fun v => total (Function.update s.batcher w b v).fNL_batch k) =
      Function.update (fun v => total (s.batcher v).fNL_batch k) w (total b.fNL_batch k) := by
    funext v
    by_cases hv : v = w <;> simp [hv]
  rw [hupdate, Finset.sum_update_of_mem (Finset.mem_univ w)]

theorem Accounted.next (h : s.Accounted) {e : fNL_event W K} (hn : s.next e = some s') : s'.Accounted := by
  cases e with
  | call w c =>
    obtain ⟨⟨b, sent⟩, hr, rfl⟩ := Option.map_eq_some_iff.mp hn
    obtain ⟨hready, hsent, hamount⟩ := fNL_batcher.accounts_run (h.ready w) hr
    refine ⟨fun v => ?_, fun t ht => ?_, h.principal, fun k => ?_⟩
    · by_cases hv : v = w
      · simpa [hv] using hready
      · simpa [hv] using h.ready v
    · exact (List.mem_append.mp ht).elim (h.sent t) (hsent t)
    · obtain ⟨rest, hold, hnew⟩ := s.exists_rest w k
      have hk := h.balance k
      rw [hold] at hk
      calc _ = (total b.fNL_batch k + (sent.map (total · k)).sum) + rest + (s.in_flight.map (total · k)).sum +
            total s.principal k := by
              simp only [hnew, List.map_append, List.sum_append]
              abel
        _ = total c.contributions k + (total (s.batcher w).fNL_batch k + rest + (s.in_flight.map (total · k)).sum +
            total s.principal k) := by
              rw [hamount k]
              abel
        _ = total (c.contributions ++ s.pushed) k := by rw [hk, total, amount_append]
  | aggregate i =>
    obtain ⟨c, hc, rfl⟩ := Option.map_eq_some_iff.mp hn
    obtain ⟨hi, rfl⟩ := List.getElem?_eq_some_iff.mp hc
    have hmem := List.getElem_mem hi
    obtain ⟨hkeyed, hamount⟩ := aggregate_fNL_spec (h.sent _ hmem) h.principal
    refine ⟨h.ready, fun t ht => h.sent t (List.mem_of_mem_eraseIdx ht), hkeyed, fun k => ?_⟩
    have hperm := ((List.getElem_cons_eraseIdx_perm hi).map (total · k)).sum_eq
    rw [← h.balance k, ← hperm, hamount]
    simp only [List.map_cons, List.sum_cons]
    abel

theorem accounted_of_reachable (h : (system W K).Reachable s) : s.Accounted := by
  refine System.Invariant.reachable (I := Accounted) ⟨?_, fun _ _ _ h hn => h.next hn⟩ h
  rintro s ⟨hb, hf, hp, hpushed⟩
  refine ⟨fun w => ⟨by simp [hb w, Rows.Keyed], fun t ht => ?_⟩, by simp [hf], by simp [hp, Rows.Keyed], fun k => ?_⟩
  · exact (Option.some.inj ((hb w).2.symm.trans ht)).symm
  · simp [hb, hf, hp, hpushed]

/-- Nothing is left in a batch or on its way. -/
def finished (s : fNL_run W K) : Prop := (∀ w, (s.batcher w).fNL_batch = []) ∧ s.in_flight = []

/-- **The sums are exact**: however the batchers were flushed and the containers aggregated, in the
end there is one row for each time that was pushed, with the sums of all its contributions. -/
theorem principal_exact (h : (system W K).Reachable s) (hfin : s.finished) :
    (s.principal.map (·.time_serial)).Nodup ∧
      (∀ k, k ∈ s.principal.map (·.time_serial) ↔ k ∈ s.pushed.map (·.time_serial)) ∧
      ∀ r ∈ s.principal,
        r.BB = ((s.pushed.filter (·.time_serial = r.time_serial)).map (·.BB)).sum ∧
        r.BT = ((s.pushed.filter (·.time_serial = r.time_serial)).map (·.BT)).sum ∧
        r.TT = ((s.pushed.filter (·.time_serial = r.time_serial)).map (·.TT)).sum := by
  obtain ⟨-, -, hkeyed, hamount⟩ := accounted_of_reachable h
  have heq (k : ℕ) : total s.principal k = total s.pushed k := by
    rw [← hamount k]
    simp [hfin.1, hfin.2]
  have hkeys (k : ℕ) : k ∈ s.principal.map (·.time_serial) ↔ k ∈ s.pushed.map (·.time_serial) := by
    have h₁ : total s.principal k = 0 ↔ k ∉ s.principal.map (·.time_serial) := amount_eq_zero_iff
    rw [heq k, total, amount_eq_zero_iff] at h₁
    exact not_iff_not.mp h₁.symm
  refine ⟨hkeyed, hkeys, fun r hr => ?_⟩
  have hsum : (values r : WithZero (K × K × K)) =
      ↑((s.pushed.filter (·.time_serial = r.time_serial)).map values).sum := by
    rw [← Keyed.amount_of_mem values hkeyed hr, show Rows.amount _ _ s.principal _ = _ from heq _, total, amount_eq,
      if_pos]
    exact (hkeys _).mp (List.mem_map_of_mem hr)
  have hvalues := WithZero.coe_injective hsum
  have hsums (l : List (fNL_item K)) :
      (l.map values).sum = ((l.map (·.BB)).sum, (l.map (·.BT)).sum, (l.map (·.TT)).sum) := by
    induction l with
    | nil => rfl
    | cons x l ih => simp [values, ih]
  rw [hsums, values, Prod.mk.injEq, Prod.mk.injEq] at hvalues
  exact hvalues

/-- Two workers, and room for one item in each batch. -/
def twoWorkers : fNL_run Bool ℤ where
  batcher _ :=
    { capacity := 16, sizeof_number := 8, mode := .flush_immediate, flush_due := false, fNL_batch := []
      container := some [] }
  in_flight := []
  principal := []
  pushed := []

/-- Three containers, which the master takes in another order. -/
def threeContainers : List (fNL_event Bool ℤ) :=
  [.call true (.push_fNL 0 1 2 3), .call false (.push_fNL 0 10 20 30), .call true (.push_fNL 1 7 8 9),
    .call false .close, .call true (.push_fNL 0 5 5 5), .call true .close, .aggregate 2, .aggregate 0, .aggregate 0]

/-- The sums of two workers are in one row for each time. -/
theorem principal_exact_two_workers :
    ∃ s : fNL_run Bool ℤ, (system Bool ℤ).Reachable s ∧ s.principal = [⟨1, 7, 8, 9⟩, ⟨0, 16, 27, 38⟩] ∧
      ∀ r ∈ s.principal, r.BB = ((s.pushed.filter (·.time_serial = r.time_serial)).map (·.BB)).sum := by
  obtain ⟨s, hs, hprincipal, hbatch, hflight⟩ : ∃ s, threeContainers.foldlM next twoWorkers = some s ∧
      s.principal = [⟨1, 7, 8, 9⟩, ⟨0, 16, 27, 38⟩] ∧ (∀ w, (s.batcher w).fNL_batch = []) ∧ s.in_flight = [] :=
    ⟨_, rfl, by decide, by decide, by decide⟩
  have hreach : (system Bool ℤ).Reachable s :=
    ⟨twoWorkers, threeContainers, ⟨fun _ => ⟨rfl, rfl⟩, rfl, rfl, rfl⟩, System.run_ofNext_of_foldlM hs⟩
  exact ⟨s, hreach, hprincipal, fun r hr => ((principal_exact hreach ⟨hbatch, hflight⟩).2.2 r hr).1⟩

end fNL_run

end CppTransport.Runtime
