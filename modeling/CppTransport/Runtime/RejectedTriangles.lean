import CppTransport.Runtime.ThreepfDatabase

/-!
# Triangles that are rejected

Before a storage policy can judge a triangle, its wavenumbers are inserted in the twopf
database, and a policy may reject the triangle and have the records removed again that
were inserted for it.

## What is proved

Whatever was there before, the two databases are afterwards as they were, but for one
flag: the background is not to be stored any more (`rejected_eq`), although no record
that is held may store it. So a rejected triangle leaves no trace if and only if a record
that is held stores the background (`leaves_no_trace_iff`).
-/

set_option linter.unusedSectionVars false

namespace CppTransport.Runtime

open Library

namespace Kconfig

variable {K : Type*} [Field K] [LinearOrder K] [IsStrictOrderedRing K]

/-! ### The twopf database -/

namespace twopf_kconfig_database

variable {w w' w'' : twopf_kconfig_database K} {k : K} {s : ℕ} {b : Bool}

/-- Some record stores the background. -/
def StoresBackground (w : twopf_kconfig_database K) : Prop := ∃ r ∈ w.database, r.store_background = true

/-- All but the records and the flag can be told from the records. -/
structure Settled (w : twopf_kconfig_database K) : Prop where
  indexed : Indexed w
  extremes : w.toExtremes = extremes_of w.database .initial
  serial : w.serial = next_serial w.database 0
  modified : w.modified = true
  /-- The first record takes the flag down. -/
  pending : w.store_background = true → w.database = []

namespace Settled

theorem eq_of_database_eq (h : Settled w) (h' : Settled w') (hdb : w'.database = w.database)
    (hcn : w'.comoving_normalization = w.comoving_normalization) :
    w' = { w with store_background := w'.store_background } := by
  have hindex : w'.index_on_k = w.index_on_k :=
    h'.indexed.separated.eq_of_mem_iff tolerant_comparator h.indexed.separated fun e => by
      rw [h.indexed.entries.mem_iff, h'.indexed.entries.mem_iff, hdb]
  have hextremes : w'.toExtremes = w.toExtremes := by rw [h.extremes, h'.extremes, hdb]
  have hserial : w'.serial = w.serial := by rw [h.serial, h'.serial, hdb]
  have hmodified : w'.modified = w.modified := h'.modified.trans h.modified.symm
  obtain ⟨e, d, i, n, m, f, cn⟩ := w
  obtain ⟨e', d', i', n', m', f', cn'⟩ := w'
  simp_all

theorem create (cn : K) : Settled (create cn) where
  indexed := indexed_create cn
  extremes := rfl
  serial := rfl
  modified := rfl
  pending _ := rfl

theorem add_record (h : Settled w) (hf : w.find k = none) : Settled (w.add_record k) where
  indexed := h.indexed.add_record hf
  extremes := (Cached.add_record ⟨h.extremes, h.indexed.serial⟩ k).extremes
  serial := by
    have hnew : (w.new_record k).serial ≥ next_serial w.database 0 := h.serial.ge
    rw [database_add_record h.indexed.serial, next_serial, List.foldl_append]
    exact (if_pos hnew).symm
  modified := by
    have hnone : w.database.any (fun x => x.serial = (w.new_record k).serial) = false :=
      List.any_eq_false.mpr fun x hx => by simp [new_record, (h.indexed.serial x hx).ne]
    exact congrArg not hnone
  pending hflag := Bool.noConfusion hflag

theorem delete_record (h : Settled w) (hd : w.delete_record s = some w') : Settled w' := by
  obtain ⟨t, ht, -, -⟩ := delete_record_eq_some w hd
  obtain ⟨hmem, rfl⟩ := h.indexed.lookup_eq_some_iff.mp ht
  rw [h.indexed.delete_record_eq hmem] at hd
  obtain rfl := Option.some.inj hd
  refine ⟨h.indexed.of_delete_record _, ?_, ?_, ?_, ?_⟩
  · rw [rebuild_cache_eq]
  · rw [rebuild_cache_eq]
  · rw [rebuild_cache_eq]
    exact h.modified
  · rw [rebuild_cache_eq]
    intro hflag
    rw [h.pending hflag] at hmem
    cases hmem

theorem set_stored (h : Settled w) (s : ℕ) : Settled (w.set_stored s) := by
  refine ⟨h.indexed.set_stored s, ?_, ?_, h.modified, fun hflag => ?_⟩
  · refine h.extremes.trans ?_
    rw [extremes_of, extremes_of, twopf_kconfig_database.set_stored, List.foldl_map]
    congr 1
    funext e r
    split_ifs <;> rfl
  · refine h.serial.trans ?_
    rw [next_serial, next_serial, twopf_kconfig_database.set_stored, List.foldl_map]
    congr 1
    funext n r
    split_ifs <;> rfl
  · rw [twopf_kconfig_database.set_stored, h.pending hflag]
    rfl

end Settled

/-- `w'` is what a part of a call makes of `w`. Once the flag is down, no record is added that stores the
background, and none that does is lost. -/
structure Follows (w w' : twopf_kconfig_database K) : Prop where
  settled : Settled w'
  normalization : w'.comoving_normalization = w.comoving_normalization
  flag : w.store_background = false → w'.store_background = false
  background : w.store_background = false → (w'.StoresBackground ↔ w.StoresBackground)

namespace Follows

theorem refl (h : Settled w) : Follows w w := ⟨h, rfl, id, fun _ => Iff.rfl⟩

theorem trans (h : Follows w w') (h' : Follows w' w'') : Follows w w'' where
  settled := h'.settled
  normalization := h'.normalization.trans h.normalization
  flag hf := h'.flag (h.flag hf)
  background hf := (h'.background (h.flag hf)).trans (h.background hf)

theorem add_record (h : Settled w) (hf : w.find k = none) : Follows w (w.add_record k) where
  settled := h.add_record hf
  normalization := rfl
  flag _ := rfl
  background hflag := by
    rw [StoresBackground, database_add_record h.indexed.serial]
    simp [StoresBackground, new_record, hflag, or_and_right, exists_or]

theorem set_stored (h : Settled w) (s : ℕ) : Follows w (w.set_stored s) where
  settled := h.set_stored s
  normalization := rfl
  flag hf := hf
  background _ := by
    have same : ∀ r : twopf_kconfig_record K,
        (if r.serial = s then { r with stored := true } else r).store_background = r.store_background := by
      intro r
      split_ifs <;> rfl
    simp only [StoresBackground, twopf_kconfig_database.set_stored, List.mem_map, exists_exists_and_eq_and, same]

end Follows

end twopf_kconfig_database

namespace threepf_kconfig_database

open twopf_kconfig_database

variable {db : threepf_kconfig_database K} {w w' : twopf_kconfig_database K} {k : K} {s : ℕ} {b : Bool}
  {config : threepf_kconfig K} {p : Populated K}

/-- A leg is found in a record that is held, or added. Either way the flag is down. -/
theorem find_or_add_follows (h : Settled w) (hs : find_or_add w k = some (w', s, b)) :
    Follows w w' ∧ w'.store_background = false := by
  unfold find_or_add at hs
  split at hs
  case h_1 s' hf =>
    obtain ⟨r, hr, -⟩ := h.indexed.exists_of_find hf
    obtain ⟨r', -, hr'⟩ := Option.map_eq_some_iff.mp hs
    obtain rfl : w = w' := congrArg Prod.fst hr'
    refine ⟨.refl h, Bool.eq_false_iff.mpr fun hflag => ?_⟩
    rw [h.pending hflag] at hr
    cases hr
  case h_2 hf =>
    obtain rfl : w.add_record k = w' := congrArg Prod.fst (Option.some.inj hs)
    exact ⟨.add_record h hf, rfl⟩

theorem populate_follows (h : Settled w) (hp : db.populate w config = some p) :
    Follows w p.twopf_db ∧ p.twopf_db.store_background = false := by
  simp only [populate, Option.bind_eq_bind, Option.bind_eq_some_iff] at hp
  obtain ⟨⟨w₁, s₁, b₁⟩, h₁, ⟨w₂, s₂, b₂⟩, h₂, ⟨w₃, s₃, b₃⟩, h₃, hp⟩ := hp
  obtain rfl := Option.some.inj hp
  obtain ⟨f₁, -⟩ := find_or_add_follows h h₁
  obtain ⟨f₂, -⟩ := find_or_add_follows f₁.settled h₂
  obtain ⟨f₃, hflag⟩ := find_or_add_follows f₂.settled h₃
  exact ⟨(f₁.trans f₂).trans f₃, hflag⟩

/-- Removing a record changes neither the flag nor the normalization. -/
theorem unwind_settled (h : Settled w) (hu : unwind w s b = some w') :
    Settled w' ∧ w'.store_background = w.store_background ∧
      w'.comoving_normalization = w.comoving_normalization := by
  unfold unwind at hu
  split_ifs at hu
  · refine ⟨h.delete_record hu, ?_⟩
    obtain ⟨t, -, -, rfl⟩ := delete_record_eq_some w hu
    rw [rebuild_cache_eq]
    exact ⟨rfl, rfl⟩
  · obtain rfl := Option.some.inj hu
    exact ⟨h, rfl, rfl⟩

theorem store_leg_follows (h : Settled w) (hs : store_leg w s = some (w', b)) : Follows w w' := by
  obtain ⟨r, -, hr⟩ := Option.map_eq_some_iff.mp hs
  obtain rfl := congrArg Prod.fst hr
  simp only
  split_ifs
  · exact .refl h
  · exact .set_stored h s

theorem retain_follows (h : Settled w) {r : threepf_kconfig_database K × twopf_kconfig_database K × Option ℕ}
    (hr : db.retain w config = some r) : Follows w r.2.1 := by
  simp only [retain, Option.bind_eq_bind, Option.bind_eq_some_iff] at hr
  obtain ⟨⟨w₁, b₁⟩, h₁, ⟨w₂, b₂⟩, h₂, ⟨w₃, b₃⟩, h₃, hr⟩ := hr
  obtain rfl := Option.some.inj hr
  have f₁ := store_leg_follows h h₁
  have f₂ := store_leg_follows f₁.settled h₂
  exact (f₁.trans f₂).trans (store_leg_follows f₂.settled h₃)

end threepf_kconfig_database

/-! ### Calls -/

namespace State

open twopf_kconfig_database threepf_kconfig_database

variable {s s' : State K} {c : Call K} {p : Populated K}

/-- The policy accepts the triangle. -/
def Accepts (s : State K) (c : Call K) : Prop :=
  ∃ p, s.threepf_db.populate s.twopf_db (c.config s.threepf_db) = some p ∧ c.policy p.config = .accept

/-- The policy rejects the triangle, and the records inserted for it are removed. -/
def RejectsRemove (s : State K) (c : Call K) : Prop :=
  ∃ p, s.threepf_db.populate s.twopf_db (c.config s.threepf_db) = some p ∧ c.policy p.config = .reject_remove

/-- What holds after every call. -/
structure Settled (s : State K) : Prop where
  sound : Sound s
  twopf : s.twopf_db.Settled
  /-- The first triangle takes the flag down. -/
  threepf : s.threepf_db.store_background = false → ∃ t ∈ s.threepf_db.database, t.store_background = true

theorem settled_create (cn : K) : Settled (create cn) where
  sound := sound_create cn
  twopf := .create cn
  threepf hflag := Bool.noConfusion hflag

/-- What a call has done that has populated the serial numbers, by what the policy decides. -/
theorem apply_outcomes (hp : s.threepf_db.populate s.twopf_db (c.config s.threepf_db) = some p)
    (happly : s.apply c = some s') :
    match c.policy p.config with
    | .reject_remove => s'.threepf_db = s.threepf_db ∧ ∃ w₁ w₂,
        unwind p.twopf_db p.config.k1_serial p.k1_new_insert = some w₁ ∧
        unwind w₁ p.config.k2_serial p.k2_new_insert = some w₂ ∧
        unwind w₂ p.config.k3_serial p.k3_new_insert = some s'.twopf_db
    | .reject_retain => s' = ⟨s.threepf_db, p.twopf_db⟩
    | .accept => ∃ r, s.threepf_db.retain p.twopf_db p.config = some r ∧ s' = ⟨r.1, r.2.1⟩ := by
  rw [apply_eq, threepf_kconfig_database.add_record, hp, Option.bind_eq_bind, Option.bind_some] at happly
  cases hpol : c.policy p.config with
  | reject_remove =>
    simp only [hpol, Option.bind_eq_bind, Option.map_eq_some_iff, Option.bind_eq_some_iff] at happly
    obtain ⟨r, ⟨w₁, h₁, w₂, h₂, w₃, h₃, hr⟩, rfl⟩ := happly
    obtain rfl := Option.some.inj hr
    exact ⟨rfl, w₁, w₂, h₁, h₂, h₃⟩
  | reject_retain =>
    simp only [hpol] at happly
    exact (Option.some.inj happly).symm
  | accept =>
    simp only [hpol, Option.map_eq_some_iff] at happly
    obtain ⟨r, hr, rfl⟩ := happly
    exact ⟨r, hr, rfl⟩

/-- **A rejected triangle** leaves the databases as they were, but the flag of the twopf database is down. -/
theorem rejected_eq (h : Settled s) (hr : RejectsRemove s c) :
    s.apply c = some ⟨s.threepf_db, { s.twopf_db with store_background := false }⟩ := by
  obtain ⟨p, hp, hpol⟩ := hr
  obtain ⟨p', -, s', hp', -, -, -, happly, applied⟩ := exists_applied h.sound c
  obtain rfl : p = p' := Option.some.inj (hp.symm.trans hp')
  obtain ⟨f, hflag⟩ := populate_follows h.twopf hp
  have hcases := apply_outcomes hp happly
  rw [hpol] at hcases applied
  obtain ⟨hsame, w₁, w₂, h₁, h₂, h₃⟩ := hcases
  obtain ⟨i₁, g₁, n₁⟩ := unwind_settled f.settled h₁
  obtain ⟨i₂, g₂, n₂⟩ := unwind_settled i₁ h₂
  obtain ⟨i₃, g₃, n₃⟩ := unwind_settled i₂ h₃
  have hdb : s'.twopf_db.database = s.twopf_db.database := by
    cases applied with
    | reject_remove _ hdb => exact hdb
  have htwopf := h.twopf.eq_of_database_eq i₃ hdb (((n₃.trans n₂).trans n₁).trans f.normalization)
  rw [((g₃.trans g₂).trans g₁).trans hflag] at htwopf
  rw [happly, ← htwopf, ← hsame]

/-- **One call** keeps what holds after every call, and once the flag is down it does not change whether a record
stores the background. -/
theorem exists_apply_settled (h : Settled s) (c : Call K) :
    ∃ s', s.apply c = some s' ∧ Settled s' ∧ s.twopf_db.Follows s'.twopf_db ∧
      (Accepts s c → s'.threepf_db.store_background = false) := by
  obtain ⟨s', happly, sound, -⟩ := exists_apply h.sound c
  obtain ⟨p, -, s'', hp, -, -, -, happly', applied⟩ := exists_applied h.sound c
  obtain rfl : s' = s'' := Option.some.inj (happly.symm.trans happly')
  obtain ⟨f, hflag⟩ := populate_follows h.twopf hp
  have hcases := apply_outcomes hp happly
  have haccepts : Accepts s c → c.policy p.config = .accept := fun ⟨p', hp', hpol⟩ =>
    Option.some.inj (hp'.symm.trans hp) ▸ hpol
  refine ⟨s', happly, ?_⟩
  cases hpol : c.policy p.config with
  | reject_remove =>
    obtain rfl := Option.some.inj (happly.symm.trans (rejected_eq h ⟨p, hp, hpol⟩))
    have settled : twopf_kconfig_database.Settled { s.twopf_db with store_background := false } :=
      ⟨⟨h.twopf.indexed.separated, h.twopf.indexed.entries, h.twopf.indexed.sorted, h.twopf.indexed.serial⟩,
        h.twopf.extremes, h.twopf.serial, h.twopf.modified, fun hflag => Bool.noConfusion hflag⟩
    refine ⟨⟨sound, settled, h.threepf⟩, ⟨settled, rfl, fun _ => rfl, fun _ => Iff.rfl⟩, fun hacc => ?_⟩
    cases hpol.symm.trans (haccepts hacc)
  | reject_retain =>
    rw [hpol] at hcases
    obtain rfl := hcases
    refine ⟨⟨sound, f.settled, h.threepf⟩, f, fun hacc => ?_⟩
    cases hpol.symm.trans (haccepts hacc)
  | accept =>
    rw [hpol] at hcases applied
    obtain ⟨r, hr, hs'⟩ := hcases
    cases applied with
    | @accept w t _ _ _ hdb _ _ hbackground =>
      obtain rfl : w = r.2.1 := congrArg State.twopf_db hs'
      have hretain := f.trans (retain_follows f.settled hr)
      refine ⟨⟨sound, hretain.settled, fun _ => ?_⟩, hretain, fun _ => rfl⟩
      -- the triangle stores the background unless one before it does
      rw [hdb]
      cases hthreepf : s.threepf_db.store_background with
      | true => exact ⟨t, by simp, hbackground.trans hthreepf⟩
      | false =>
        obtain ⟨t', ht', hstores⟩ := h.threepf hthreepf
        exact ⟨t', List.mem_append_left _ ht', hstores⟩

/-! ### Traces -/

/-- Some twopf record and some threepf record store the background. -/
def StoresBackground (s : State K) : Prop :=
  s.twopf_db.StoresBackground ∧ ∃ t ∈ s.threepf_db.database, t.store_background = true

/-- `s'` behaves in all later calls as `s` does, and when a triangle has been accepted the background is stored. -/
structure LeavesNoTrace (s s' : State K) : Prop where
  same : ∀ calls : List (Call K), calls.foldlM apply s' = calls.foldlM apply s
  background : ∀ (calls : List (Call K)) s₁ c s₂, calls.foldlM apply s' = some s₁ → Accepts s₁ c → s₁.apply c = some s₂ →
    StoresBackground s₂

theorem settled_of_foldlM {calls : List (Call K)} (h : Settled s) (hrun : calls.foldlM apply s = some s') :
    Settled s' ∧ s.twopf_db.Follows s'.twopf_db := by
  induction calls generalizing s with
  | nil =>
    obtain rfl : s = s' := Option.some.inj hrun
    exact ⟨h, .refl h.twopf⟩
  | cons c calls ih =>
    rw [List.foldlM_cons, Option.bind_eq_bind, Option.bind_eq_some_iff] at hrun
    obtain ⟨s₁, hstep, hrest⟩ := hrun
    obtain ⟨s₁', hstep', h₁, f₁, -⟩ := exists_apply_settled h c
    obtain rfl : s₁ = s₁' := Option.some.inj (hstep.symm.trans hstep')
    obtain ⟨h', f'⟩ := ih h₁ hrest
    exact ⟨h', f₁.trans f'⟩

/-- Some triangle is accepted by a policy that accepts all. -/
theorem exists_accepts (h : Settled s) : ∃ c : Call K, Accepts s c := by
  obtain ⟨p, hp, -⟩ := s.threepf_db.populate_spec h.sound.indexed (s.threepf_db.config_k1k2k3 1 1 1)
  exact ⟨.k1k2k3 1 1 1 fun _ => .accept, p, hp, rfl⟩

/-- **Rejection** leaves no trace, in whatever state, if and only if a record that is held stores the background. -/
theorem leaves_no_trace_iff (cn : K) {calls : List (Call K)} (hrun : calls.foldlM apply (create cn) = some s)
    (hr : RejectsRemove s c) :
    ∃ s', s.apply c = some s' ∧ (LeavesNoTrace s s' ↔ s.twopf_db.StoresBackground) := by
  obtain ⟨h, -⟩ := settled_of_foldlM (settled_create cn) hrun
  obtain ⟨s', happly, h', -, -⟩ := exists_apply_settled h c
  have hs' := Option.some.inj (happly.symm.trans (rejected_eq h hr))
  have hdown : s'.twopf_db.store_background = false := by rw [hs']
  have hheld : s'.twopf_db.StoresBackground ↔ s.twopf_db.StoresBackground := by
    rw [hs']
    exact Iff.rfl
  refine ⟨s', happly, fun trace => ?_, fun stores => ⟨fun later => ?_, fun later s₁ c' s₂ hlater hacc hstep => ?_⟩⟩
  · -- once the flag is down only a record that is held can store the background
    obtain ⟨c', hacc⟩ := exists_accepts h'
    obtain ⟨s₂, hstep, -, f, -⟩ := exists_apply_settled h' c'
    have hstored := (trace.background [] s' c' s₂ rfl hacc hstep).1
    exact hheld.mp ((f.background hdown).mp hstored)
  · have hflag : s.twopf_db.store_background = false := by
      refine Bool.eq_false_iff.mpr fun hflag => ?_
      obtain ⟨r, hr, -⟩ := stores
      rw [h.twopf.pending hflag] at hr
      cases hr
    have hsame : s' = s := by rw [hs', ← hflag]
    rw [hsame]
  · obtain ⟨h₁, f₁⟩ := settled_of_foldlM h' hlater
    obtain ⟨s₂', hstep', h₂, f₂, hthreepf⟩ := exists_apply_settled h₁ c'
    obtain rfl : s₂ = s₂' := Option.some.inj (hstep.symm.trans hstep')
    exact ⟨((f₁.trans f₂).background hdown).mpr (hheld.mpr stores), h₂.threepf (hthreepf hacc)⟩

/-- A triangle is accepted, and another rejected. -/
theorem leaves_no_trace_second : ∃ s s' : State ℚ,
    [Call.k1k2k3 1 1 1 fun _ => .accept].foldlM apply (create 1) = some s ∧
      s.apply (.k1k2k3 2 2 3 fun _ => .reject_remove) = some s' ∧
      (LeavesNoTrace s s' ↔ s.twopf_db.StoresBackground) := by
  obtain ⟨s, hs⟩ := Option.isSome_iff_exists.mp
    (show ([Call.k1k2k3 (1 : ℚ) 1 1 fun _ => .accept].foldlM apply (create 1)).isSome by decide +kernel)
  obtain ⟨h, -⟩ := settled_of_foldlM (settled_create 1) hs
  obtain ⟨p, hp, -⟩ := s.threepf_db.populate_spec h.sound.indexed (s.threepf_db.config_k1k2k3 2 2 3)
  obtain ⟨s', hs', hiff⟩ := leaves_no_trace_iff (c := .k1k2k3 2 2 3 fun _ => .reject_remove) 1 hs ⟨p, hp, rfl⟩
  exact ⟨s, s', hs, hs', hiff⟩

/-- The first triangle is rejected: no record stores the background when the second is accepted. -/
theorem first_rejected_leaves_trace : ∃ s' : State ℚ,
    (create 1).apply (.k1k2k3 1 1 1 fun _ => .reject_remove) = some s' ∧ ¬ LeavesNoTrace (create 1) s' := by
  have h := settled_create (1 : ℚ)
  obtain ⟨p, hp, -⟩ := (create (1 : ℚ)).threepf_db.populate_spec h.sound.indexed
    ((create (1 : ℚ)).threepf_db.config_k1k2k3 1 1 1)
  have hs' := rejected_eq (c := .k1k2k3 1 1 1 fun _ => .reject_remove) h ⟨p, hp, rfl⟩
  refine ⟨_, hs', fun trace => ?_⟩
  -- the flag itself is not as it was
  have hflag := congrArg (fun s => s.map fun s : State ℚ => s.twopf_db.store_background) (trace.same [])
  exact absurd hflag (by decide)

end State

end Kconfig

end CppTransport.Runtime
