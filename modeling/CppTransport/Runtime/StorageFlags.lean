import CppTransport.Runtime.KeptConfigurations

/-!
# Flags that are set once

A triangle is flagged to store the background, and on each of its legs to store the twopf
of that leg. The three legs of a triangle may share one twopf record, with each other and
with those of triangles before it, and a record that was added for a leg may be taken
back when a policy rejects the triangle. `add_record` sets the flag of a leg if the record
is not yet marked as stored, and marks it before it goes on to the next leg.

## What is proved

* `stored_once`: after every sequence of calls, just one triangle is flagged for the
  background as soon as there is one, and among all legs of all triangles just one is
  flagged for each twopf record that is a leg.
-/

set_option linter.unusedSectionVars false

namespace CppTransport.Runtime

open Library

namespace Kconfig

variable {K : Type*} [Field K] [LinearOrder K] [IsStrictOrderedRing K]

/-- The serial numbers of the legs that are flagged, one for each flag. -/
def threepf_kconfig_record.stored_legs (t : threepf_kconfig_record K) : List ℕ :=
  (if t.store_twopf_k1 then [t.record.k1_serial] else []) ++
    ((if t.store_twopf_k2 then [t.record.k2_serial] else []) ++
      (if t.store_twopf_k3 then [t.record.k3_serial] else []))

theorem mem_stored_legs {t : threepf_kconfig_record K} {j : ℕ} : j ∈ t.stored_legs ↔ t.Stores j := by
  have flag : ∀ (b : Bool) (i : ℕ), j ∈ (if b then [i] else []) ↔ b = true ∧ i = j := fun b i => by
    cases b <;> simp [eq_comm]
  simp only [threepf_kconfig_record.stored_legs, threepf_kconfig_record.Stores, List.mem_append, flag]

namespace twopf_kconfig_database

/-- The record that an iterator points to is marked as stored. -/
def Marked (db : twopf_kconfig_database K) (serial : ℕ) : Prop := ∃ r, db.lookup serial = some r ∧ r.stored = true

variable {w w' : twopf_kconfig_database K} {s j : ℕ} {b : Bool}

theorem lookup_set_stored (w : twopf_kconfig_database K) (s j : ℕ) : (w.set_stored s).lookup j =
    (w.lookup j).map fun r => if r.serial = s then { r with stored := true } else r := by
  rw [lookup, lookup, set_stored, List.find?_map]
  congr 2
  funext r
  simp only [Function.comp]
  split_ifs <;> rfl

theorem Marked.set_stored (h : w.Marked j) (s : ℕ) : (w.set_stored s).Marked j := by
  obtain ⟨r, hr, hst⟩ := h
  refine ⟨_, by rw [lookup_set_stored, hr, Option.map_some], ?_⟩
  split_ifs
  · rfl
  · exact hst

theorem marked_set_stored {r : twopf_kconfig_record K} (h : w.lookup s = some r) : (w.set_stored s).Marked s := by
  have hs : r.serial = s := by simpa using List.find?_some h
  exact ⟨_, by rw [lookup_set_stored, h, Option.map_some], by rw [if_pos hs]⟩

end twopf_kconfig_database

namespace threepf_kconfig_database

open twopf_kconfig_database

variable {db db' : threepf_kconfig_database K} {w w' : twopf_kconfig_database K} {s : ℕ} {b : Bool}

/-- A leg is flagged only if its record was not marked, and leaves the record marked. -/
theorem store_leg_marks (h : store_leg w s = some (w', b)) :
    (b = true → ¬ w.Marked s) ∧ w'.Marked s ∧ ∀ j, w.Marked j → w'.Marked j := by
  obtain ⟨r, hr, heq⟩ := Option.map_eq_some_iff.mp h
  obtain ⟨rfl, rfl⟩ := Prod.mk.injEq _ _ _ _ ▸ heq
  cases hst : r.stored with
  | true => exact ⟨by simp, ⟨r, by simpa using hr, hst⟩, fun j hj => by simpa using hj⟩
  | false =>
    refine ⟨fun _ => ?_, by simpa using marked_set_stored hr, fun j hj => by simpa using hj.set_stored s⟩
    rintro ⟨r', hr', hst'⟩
    rw [Option.some.inj (hr.symm.trans hr'), hst'] at hst
    cases hst

/-- **One triangle**: no two of its legs are flagged for the same record. -/
theorem retain_stored_legs {config : threepf_kconfig K} {i : Option ℕ}
    (h : db.retain w config = some (db', w', i)) :
    ∃ t, db' = db.insert_record t ∧ t.stored_legs.Nodup := by
  simp only [retain, Option.bind_eq_bind, Option.bind_eq_some_iff, Prod.exists, Option.pure_def, Option.some.injEq,
    Prod.mk.injEq] at h
  obtain ⟨w₁, b₁, h₁, w₂, b₂, h₂, w₃, b₃, h₃, rfl, -⟩ := h
  refine ⟨_, rfl, ?_⟩
  obtain ⟨-, marked₁, keep₁⟩ := store_leg_marks h₁
  obtain ⟨new₂, marked₂, keep₂⟩ := store_leg_marks h₂
  obtain ⟨new₃, -, -⟩ := store_leg_marks h₃
  have ne₂ : b₂ = true → config.k1_serial ≠ config.k2_serial := fun hb heq => new₂ hb (heq ▸ marked₁)
  have ne₁₃ : b₃ = true → config.k1_serial ≠ config.k3_serial := fun hb heq => new₃ hb (heq ▸ keep₂ _ marked₁)
  have ne₂₃ : b₃ = true → config.k2_serial ≠ config.k3_serial := fun hb heq => new₃ hb (heq ▸ marked₂)
  cases b₁ <;> cases b₂ <;> cases b₃ <;> simp_all [threepf_kconfig_record.stored_legs]

theorem mem_insert_record {t t' : threepf_kconfig_record K} (h : t' ∈ (db.insert_record t).database) :
    t' = t ∨ t' ∈ db.database := by
  simp only [insert_record, emplaceBySerial] at h
  split_ifs at h
  · exact .inr h
  · rcases List.mem_append.mp h with h | h
    · exact .inr ((List.takeWhile_sublist _).subset h)
    · exact (List.mem_cons.mp h).imp id fun h => (List.dropWhile_sublist _).subset h

/-- A call keeps or adds triangles whose flags are for different records. -/
theorem add_record_stored_legs {config : threepf_kconfig K} {policy : threepf_kconfig K → storage_outcome}
    {r : threepf_kconfig_database K × twopf_kconfig_database K × Option ℕ}
    (h : db.add_record w config policy = some r) (nodup : ∀ t ∈ db.database, t.stored_legs.Nodup) :
    ∀ t ∈ r.1.database, t.stored_legs.Nodup := by
  obtain ⟨p, -, h⟩ := Option.bind_eq_some_iff.mp h
  cases hpol : policy p.config with
  | reject_remove =>
    simp only [hpol, Option.bind_eq_bind, Option.bind_eq_some_iff, Option.pure_def, Option.some.injEq] at h
    obtain ⟨-, -, -, -, -, -, rfl⟩ := h
    exact nodup
  | reject_retain =>
    simp only [hpol, Option.pure_def, Option.some.injEq] at h
    exact h ▸ nodup
  | accept =>
    simp only [hpol] at h
    obtain ⟨t, hdb, own⟩ := retain_stored_legs h
    intro t' ht'
    rcases mem_insert_record (hdb ▸ ht') with rfl | ht'
    · exact own
    · exact nodup t' ht'

end threepf_kconfig_database

namespace State

open twopf_kconfig_database threepf_kconfig_database

variable {s : State K}

/-- What should be stored once. -/
structure StoredOnce (s : State K) : Prop where
  /-- One triangle is flagged for the background, if there is a triangle. -/
  background : s.threepf_db.database ≠ [] → s.threepf_db.database.countP (·.store_background) = 1
  /-- Among the legs of all triangles, one is flagged for each record that is a leg. -/
  twopf : ∀ t ∈ s.threepf_db.database, ∀ leg ∈ t.record.legs,
    (s.threepf_db.database.flatMap (·.stored_legs)).count leg.2 = 1

/-- If the flags are in order, and those of each triangle are for different records, all are. -/
theorem Flagged.nodup_stored_legs (h : Flagged s) (nodup : ∀ t ∈ s.threepf_db.database, t.stored_legs.Nodup) :
    (s.threepf_db.database.flatMap (·.stored_legs)).Nodup := by
  refine List.nodup_flatMap.mpr ⟨nodup, (List.pairwise_map.mp h.sorted).imp_of_mem fun {a b} ha hb hlt => ?_⟩
  intro j hja hjb
  have same := h.once a ha b hb j (mem_stored_legs.mp hja) (mem_stored_legs.mp hjb)
  rw [same] at hlt
  exact lt_irrefl _ hlt

theorem Flagged.storedOnce (h : Flagged s) (nodup : (s.threepf_db.database.flatMap (·.stored_legs)).Nodup) :
    StoredOnce s where
  background some := by
    have closed : s.threepf_db.store_background = false := by
      rw [← Bool.not_eq_true]
      exact fun hopen => some (h.background_open hopen)
    obtain ⟨t, ht, hst, only⟩ := h.background_closed closed
    have serials : (s.threepf_db.database.map (·.record.serial)).Nodup := h.sorted.imp fun h => Nat.ne_of_lt h
    have others : (s.threepf_db.database.filter fun x => x.record.serial ≠ t.record.serial).countP
        (·.store_background) = 0 := by
      refine List.countP_eq_zero.mpr fun x hx hst' => ?_
      obtain ⟨hx, hne⟩ := List.mem_filter.mp hx
      exact of_decide_eq_true hne (congrArg (·.record.serial) (only x hx hst'))
    rw [(perm_cons_filter_key serials ht).countP_eq, List.countP_cons_of_pos hst, others]
  twopf t ht leg hleg := by
    obtain ⟨u, hu, hj⟩ := (h.stored_iff leg.2).mp (h.legs leg (List.mem_flatMap.mpr ⟨t, ht, hleg⟩))
    exact List.count_eq_one_of_mem nodup (List.mem_flatMap.mpr ⟨u, hu, mem_stored_legs.mpr hj⟩)

theorem apply_stored_legs {s' : State K} {c : Call K} (h : s.apply c = some s')
    (nodup : ∀ t ∈ s.threepf_db.database, t.stored_legs.Nodup) :
    ∀ t ∈ s'.threepf_db.database, t.stored_legs.Nodup := by
  rw [apply_eq] at h
  obtain ⟨r, hr, rfl⟩ := Option.map_eq_some_iff.mp h
  exact add_record_stored_legs hr nodup

theorem nodup_stored_legs_of_reachable {cn : K} (h : (runs cn).Reachable s) :
    (s.threepf_db.database.flatMap (·.stored_legs)).Nodup := by
  refine (flagged_of_reachable h).2.nodup_stored_legs ?_
  refine System.Invariant.reachable (I := fun s => ∀ t ∈ s.threepf_db.database, t.stored_legs.Nodup) ⟨?_, ?_⟩ h
  · rintro _ rfl
    simp [create, threepf_kconfig_database.create]
  · exact fun s c s' nodup hs => apply_stored_legs hs nodup

/-- **Once**: every sequence of calls is defined, and afterwards nothing is stored twice, or not at all. -/
theorem stored_once (cn : K) (calls : List (Call K)) :
    ∃ s, calls.foldlM apply (create cn) = some s ∧ StoredOnce s := by
  have step : ∀ (s : State K) (c : Call K), Sound s → ∃ s', s.apply c = some s' ∧ Sound s' := fun s c sound => by
    obtain ⟨s', hs', sound', -⟩ := exists_apply sound c
    exact ⟨s', hs', sound'⟩
  obtain ⟨s, hs, -⟩ := System.exists_foldlM step (sound_create cn) calls
  have reached : (runs cn).Reachable s := ⟨create cn, calls, rfl, System.run_ofNext_of_foldlM hs⟩
  exact ⟨s, hs, (flagged_of_reachable reached).2.storedOnce (nodup_stored_legs_of_reachable reached)⟩

/-- An equilateral triangle, a rejected one whose record is taken back, and one with legs in common with both. -/
def overlapping : List (Call ℚ) :=
  [.k1k2k3 1 1 1 fun _ => .accept, .k1k2k3 2 2 2 fun _ => .reject_remove, .k1k2k3 2 2 1 fun _ => .accept]

theorem stored_once_overlapping : ∃ s, overlapping.foldlM apply (create (1 : ℚ)) = some s ∧ StoredOnce s :=
  stored_once 1 overlapping

example : (overlapping.foldlM apply (create (1 : ℚ))).map
    (fun s => s.threepf_db.database.map (·.stored_legs)) = some [[0], [1]] := by decide +kernel

end State

end Kconfig

end CppTransport.Runtime
