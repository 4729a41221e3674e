import CppTransport.Runtime.KconfigTables

/-!
# Configuration databases written and read back

Databases that were built by any sequence of additions and deletions are written to a
container and read back. The records of the twopf database come back as they are. The index
is built again from them in the order of their serial numbers, and `delete_record` erases
the entry that a search for the wavenumber finds, so that the index can have lost an entry
that is built again. The legs of a triangle come back with the wavenumber of the record
they are attached to, which is that of the leg only up to the tolerance of the search.

## What is proved

* `built_of_changes`: the extremes and the serial number in the databases are those that the
  constructors work out;
* `round_trips_iff`: in every state of a run the databases survive the round trip if and
  only if no deletion takes a record from under a triangle, or leaves a record without its
  place in the index, and each triangle accepted has just the wavenumbers of its records.
-/

set_option linter.unusedSectionVars false

namespace CppTransport.Runtime

open Library

namespace Kconfig

variable {K : Type*} [Field K] [LinearOrder K] [IsStrictOrderedRing K]

namespace twopf_kconfig_database

variable {db db' w w' : twopf_kconfig_database K} {cn k : K} {s : ℕ} {t : twopf_kconfig_record K}
  {new rest : List ℕ}

/-! ### Additions and deletions -/

theorem extremes_of_concat (l : List (twopf_kconfig_record K)) (r : twopf_kconfig_record K) (e : Extremes K) :
    extremes_of (l ++ [r]) e = (extremes_of l e).update r.k_conventional r.k_comoving := by
  rw [extremes_of, List.foldl_append]
  rfl

theorem next_serial_concat (l : List (twopf_kconfig_record K)) (r : twopf_kconfig_record K) (s : ℕ) :
    next_serial (l ++ [r]) s = if r.serial ≥ next_serial l s then r.serial + 1 else next_serial l s := by
  rw [next_serial, List.foldl_append]
  rfl

theorem Built.above (h : Built cn db) : ∀ r ∈ db.database, r.serial < db.serial := by
  rw [h.serial]
  exact (lt_next_serial 0).2

theorem built_create (cn : K) : Built cn (create cn) := by
  constructor <;> simp [create, TolerantIndex.Separated, extremes_of, next_serial]

theorem Built.add_record (h : Built cn db) (k : K) : Built cn (db.add_record k) := by
  have hdb := database_add_record h.above k
  have entries : (db.add_record k).entries = db.entries ++ [(k, db.serial)] := by
    rw [twopf_kconfig_database.entries, hdb, List.map_append]
    rfl
  have index : (db.add_record k).index_on_k =
      TolerantIndex.emplace ReverseKLookupComparator k db.serial db.index_on_k := rfl
  constructor
  case separated =>
    rw [index]
    cases hf : TolerantIndex.find ReverseKLookupComparator k db.index_on_k with
    | none => exact h.separated.emplace tolerant_comparator hf
    | some e =>
      rw [TolerantIndex.emplace_of_find hf]
      exact h.separated
  case index =>
    rw [index, entries]
    cases hf : TolerantIndex.find ReverseKLookupComparator k db.index_on_k with
    | none =>
      intro e he
      rcases (TolerantIndex.mem_emplace_iff hf).mp he with rfl | he
      · simp
      · exact List.mem_append_left _ (h.index he)
    | some e =>
      rw [TolerantIndex.emplace_of_find hf]
      exact fun e he => List.mem_append_left _ (h.index he)
  case sorted =>
    rw [hdb]
    refine List.pairwise_append.mpr ⟨h.sorted, by simp, fun r hr r' hr' => ?_⟩
    rw [List.mem_singleton.mp hr']
    exact h.above r hr
  case extremes =>
    rw [hdb, extremes_of_concat, ← h.extremes]
    rfl
  case serial =>
    rw [hdb, next_serial_concat, ← h.serial]
    exact (if_pos (Nat.le_refl _)).symm
  case normalization => exact h.normalization
  case comoving =>
    rw [hdb]
    intro r hr
    rcases List.mem_append.mp hr with hr | hr
    · exact h.comoving r hr
    · rw [List.mem_singleton.mp hr, new_record, h.normalization]

/-- An addition leaves each record its place in the index, and gives the new one a place. -/
theorem Represented.add_record (h : Represented db) (hb : Built cn db) (k : K) : Represented (db.add_record k) := by
  intro e he
  rw [entries, database_add_record hb.above k, List.map_append] at he
  have self := TolerantIndex.not_before_self tolerant_comparator k
  rcases List.mem_append.mp he with he | he
  · obtain ⟨x, hx, hle, within⟩ := h e he
    exact ⟨x, TolerantIndex.mem_emplace_of_mem hx, hle, within⟩
  · obtain rfl : e = (k, db.serial) := by simpa [entry, new_record] using he
    cases hf : TolerantIndex.find ReverseKLookupComparator k db.index_on_k with
    | none => exact ⟨_, (TolerantIndex.mem_emplace_iff hf).mpr (.inl rfl), le_rfl, self, self⟩
    | some x =>
      obtain ⟨hx, within⟩ := TolerantIndex.find_eq_some hf
      obtain ⟨r, hr, rfl⟩ := List.mem_map.mp (hb.index hx)
      exact ⟨_, TolerantIndex.mem_emplace_of_mem hx, (hb.above r hr).le, within⟩

/-- What a deletion that is defined leaves. -/
theorem of_delete_record (h : db.delete_record s = some db') : ∃ t, db.lookup s = some t ∧
    db'.database = db.database.filter (fun r => r.serial ≠ s) ∧
    db'.index_on_k = TolerantIndex.erase ReverseKLookupComparator t.k_conventional db.index_on_k := by
  obtain ⟨t, ht, -, rfl⟩ := delete_record_eq_some db h
  exact ⟨t, ht, by rw [rebuild_cache_eq], by rw [rebuild_cache_eq]⟩

/-- What a search finds by the record's own wavenumber is its own entry, if it has one. -/
theorem Built.erase_own (h : Built cn db) (ht : entry t ∈ db.index_on_k) {e : K × ℕ} :
    e ∈ TolerantIndex.erase ReverseKLookupComparator t.k_conventional db.index_on_k ↔
      e ∈ db.index_on_k ∧ e.2 ≠ t.serial := by
  rw [show t.k_conventional = (entry t).1 from rfl, TolerantIndex.erase_key tolerant_comparator h.separated ht,
    List.mem_filter, decide_eq_true_eq]
  refine and_congr_right fun he => not_congr ?_
  obtain ⟨r, hr, rfl⟩ := List.mem_map.mp (h.index he)
  obtain ⟨r', hr', heq⟩ := List.mem_map.mp (h.index ht)
  constructor
  · intro hk
    rcases h.separated.eq_or_before he ht with heq | hlt | hlt
    · exact congrArg Prod.snd heq
    · exact absurd hk (tolerant_comparator.lt_of_before hlt).ne
    · exact absurd hk (tolerant_comparator.lt_of_before hlt).ne'
  · intro hs
    have same : r = r' := by
      have hr₂ := h.lookup_iff.mpr ⟨hr, hs⟩
      have hr₃ := h.lookup_iff.mpr ⟨hr', (congrArg Prod.snd heq : r'.serial = t.serial)⟩
      exact Option.some.inj (hr₂.symm.trans hr₃)
    rw [same]
    exact congrArg Prod.fst heq

theorem Built.delete_record (h : Built cn db) (hd : db.delete_record s = some db') : Built cn db' := by
  obtain ⟨t, ht, -, rfl⟩ := delete_record_eq_some db hd
  obtain ⟨held, hs⟩ := h.lookup_iff.mp ht
  have sublist : (TolerantIndex.erase ReverseKLookupComparator t.k_conventional db.index_on_k).Sublist
      db.index_on_k := TolerantIndex.erase_sublist _ _
  rw [rebuild_cache_eq]
  refine ⟨List.Pairwise.sublist sublist h.separated, fun e he => ?_, h.sorted.filter _, rfl, rfl,
    h.normalization, fun r hr => h.comoving r (List.mem_of_mem_filter hr)⟩
  obtain ⟨r, hr, rfl⟩ := List.mem_map.mp (h.index (sublist.subset he))
  refine List.mem_map_of_mem (List.mem_filter.mpr ⟨hr, ?_⟩)
  -- if the entry of the record deleted is there, it is the one that is erased
  by_contra hdel
  have hrs : r.serial = s := by simpa using hdel
  have same : r = t := Option.some.inj ((h.lookup_iff.mpr ⟨hr, hrs⟩).symm.trans ht)
  have own := (h.erase_own (same ▸ sublist.subset he)).mp he
  exact own.2 (congrArg (·.serial) same)

/-- Marking a record changes nothing that the index or the cache are about. -/
theorem Built.set_stored (h : Built cn db) (s : ℕ) : Built cn (db.set_stored s) := by
  have same : ∀ r : twopf_kconfig_record K, ∀ r' : twopf_kconfig_record K,
      (if r.serial = s then { r with stored := true } else r) = r' →
        r'.serial = r.serial ∧ r'.k_conventional = r.k_conventional ∧ r'.k_comoving = r.k_comoving := by
    rintro r _ rfl
    split_ifs <;> exact ⟨rfl, rfl, rfl⟩
  have entries := entries_set_stored db s
  constructor
  case separated => exact h.separated
  case index =>
    rw [entries]
    exact h.index
  case sorted =>
    refine List.pairwise_map.mpr (h.sorted.imp fun {a b} hab => ?_)
    rwa [(same a _ rfl).1, (same b _ rfl).1]
  case extremes =>
    rw [extremes_of, twopf_kconfig_database.set_stored, List.foldl_map]
    simp only [(same _ _ rfl).2.1, (same _ _ rfl).2.2]
    exact h.extremes
  case serial =>
    rw [next_serial, twopf_kconfig_database.set_stored, List.foldl_map]
    simp only [(same _ _ rfl).1]
    exact h.serial
  case normalization => exact h.normalization
  case comoving =>
    intro r' hr'
    obtain ⟨r, hr, heq⟩ := List.mem_map.mp hr'
    rw [(same r r' heq).2.2, (same r r' heq).2.1]
    exact h.comoving r hr

theorem Represented.set_stored (h : Represented db) (s : ℕ) : Represented (db.set_stored s) := by
  rw [Represented, entries_set_stored]
  exact h

/-! ### Records added by a call, and taken back -/

/-- `w'` is `w` with records of the serial numbers `new` added, each with its own entry in the index. -/
structure Grown (cn : K) (w w' : twopf_kconfig_database K) (new : List ℕ) : Prop where
  built : Built cn w'
  added : ∃ l, w'.database = w.database ++ l ∧ l.map (·.serial) = new ∧ ∀ r ∈ l, entry r ∈ w'.index_on_k
  index : w.index_on_k ⊆ w'.index_on_k

namespace Grown

theorem refl (h : Built cn w) : Grown cn w w [] :=
  ⟨h, ⟨[], by simp, rfl, by simp⟩, List.Subset.refl _⟩

theorem entries_subset (h : Grown cn w w' new) : w.entries ⊆ w'.entries := by
  obtain ⟨l, hl, -⟩ := h.added
  rw [entries, entries, hl]
  exact List.map_subset _ (List.subset_append_left _ _)

theorem represented (h : Grown cn w w' new) (hr : Represented w) : Represented w' := by
  obtain ⟨l, hl, -, own⟩ := h.added
  intro e he
  rw [entries, hl, List.map_append] at he
  rcases List.mem_append.mp he with he | he
  · obtain ⟨x, hx, within⟩ := hr e he
    exact ⟨x, h.index hx, within⟩
  · obtain ⟨r, hr, rfl⟩ := List.mem_map.mp he
    have self := TolerantIndex.not_before_self tolerant_comparator r.k_conventional
    exact ⟨entry r, own r hr, le_rfl, self, self⟩

theorem find_or_add {b : Bool} (h : Grown cn w w' new) {w'' : twopf_kconfig_database K}
    (hf : threepf_kconfig_database.find_or_add w' k = some (w'', s, b)) : Grown cn w w'' (new ++ fresh b s) := by
  rw [threepf_kconfig_database.find_or_add] at hf
  cases hfind : w'.find k with
  | some s' =>
    rw [hfind] at hf
    obtain ⟨r, -, heq⟩ := Option.map_eq_some_iff.mp hf
    simp only [Prod.mk.injEq] at heq
    obtain ⟨rfl, rfl, rfl⟩ := heq
    simpa [fresh] using h
  | none =>
    rw [hfind] at hf
    simp only [Option.some.injEq, Prod.mk.injEq] at hf
    obtain ⟨rfl, rfl, rfl⟩ := hf
    obtain ⟨l, hl, hs, own⟩ := h.added
    have none := Option.map_eq_none_iff.mp hfind
    refine ⟨h.built.add_record k, ⟨l ++ [w'.new_record k], ?_, by simp [hs, fresh, new_record], ?_⟩, ?_⟩
    · rw [database_add_record h.built.above, hl, List.append_assoc]
    · intro r hr
      rcases List.mem_append.mp hr with hr | hr
      · exact TolerantIndex.mem_emplace_of_mem (own r hr)
      · rw [List.mem_singleton.mp hr]
        exact (TolerantIndex.mem_emplace_iff none).mpr (.inl rfl)
    · exact fun e he => TolerantIndex.mem_emplace_of_mem (h.index he)

/-- Deleting the first of the records added erases its own entry. -/
theorem delete_record (hw : Built cn w) (h : Grown cn w w' (s :: rest)) {w'' : twopf_kconfig_database K}
    (hd : w'.delete_record s = some w'') : Grown cn w w'' rest := by
  obtain ⟨l, hl, hs, own⟩ := h.added
  obtain ⟨r, l, rfl, rfl, rfl⟩ := List.map_eq_cons_iff.mp hs
  obtain ⟨t, ht, hdb, hidx⟩ := of_delete_record hd
  have hr : r ∈ w'.database := by simp [hl]
  obtain rfl : r = t := Option.some.inj ((h.built.lookup_iff.mpr ⟨hr, rfl⟩).symm.trans ht)
  have sorted := h.built.sorted
  rw [hl] at sorted
  obtain ⟨-, tail, below⟩ := List.pairwise_append.mp sorted
  have above := (List.pairwise_cons.mp tail).1
  have left : w.database.filter (fun x => x.serial ≠ r.serial) = w.database :=
    List.filter_eq_self.mpr fun x hx => by simpa using (below x hx r List.mem_cons_self).ne
  have right : l.filter (fun x => x.serial ≠ r.serial) = l :=
    List.filter_eq_self.mpr fun x hx => by simpa using (above x hx).ne'
  have erase : ∀ e, e ∈ w''.index_on_k ↔ e ∈ w'.index_on_k ∧ e.2 ≠ r.serial := fun e => by
    rw [hidx]
    exact h.built.erase_own (own r List.mem_cons_self)
  refine ⟨h.built.delete_record hd, ⟨l, ?_, rfl, fun x hx => ?_⟩, fun e he => ?_⟩
  · rw [hdb, hl, List.filter_append, List.filter_cons_of_neg (by simp), left, right]
  · exact (erase _).mpr ⟨own x (List.mem_cons_of_mem _ hx), (above x hx).ne'⟩
  · obtain ⟨x, hx, rfl⟩ := List.mem_map.mp (hw.index he)
    exact (erase _).mpr ⟨h.index he, (below x hx r List.mem_cons_self).ne⟩

theorem unwind {b : Bool} (hw : Built cn w) (h : Grown cn w w' (fresh b s ++ rest)) {w'' : twopf_kconfig_database K}
    (hu : threepf_kconfig_database.unwind w' s b = some w'') : Grown cn w w'' rest := by
  cases b with
  | false =>
    obtain rfl : w' = w'' := Option.some.inj hu
    exact h
  | true => exact h.delete_record hw hu

end Grown

end twopf_kconfig_database

namespace threepf_kconfig_database

open twopf_kconfig_database

variable {db db' : threepf_kconfig_database K} {w w' : twopf_kconfig_database K} {cn : K}
  {config : threepf_kconfig K} {t : threepf_kconfig_record K} {p : Populated K}

/-- The serial numbers that are populated, and the records that this adds. -/
theorem grown_of_populate (hw : w.Built cn) (hp : db.populate w config = some p) :
    Grown cn w p.twopf_db (fresh p.k1_new_insert p.config.k1_serial ++ (fresh p.k2_new_insert p.config.k2_serial ++
      (fresh p.k3_new_insert p.config.k3_serial ++ []))) ∧ p.config = { config with
        serial := db.serial
        k1_serial := p.config.k1_serial
        k2_serial := p.config.k2_serial
        k3_serial := p.config.k3_serial } := by
  simp only [populate, Option.bind_eq_bind, Option.bind_eq_some_iff, Prod.exists, Option.pure_def,
    Option.some.injEq] at hp
  obtain ⟨w₁, s₁, b₁, h₁, w₂, s₂, b₂, h₂, w₃, s₃, b₃, h₃, rfl⟩ := hp
  exact ⟨by simpa using (((Grown.refl hw).find_or_add h₁).find_or_add h₂).find_or_add h₃, rfl⟩

theorem store_leg_keeps {s : ℕ} {b : Bool} (hw : w.Built cn) (h : store_leg w s = some (w', b)) :
    w'.Built cn ∧ w'.entries = w.entries ∧ (Represented w → Represented w') := by
  obtain ⟨r, -, heq⟩ := Option.map_eq_some_iff.mp h
  obtain ⟨rfl, -⟩ := Prod.mk.injEq _ _ _ _ ▸ heq
  split_ifs
  · exact ⟨hw, rfl, id⟩
  · exact ⟨hw.set_stored s, entries_set_stored w s, fun hr => hr.set_stored s⟩

/-- A triangle that is kept goes into the database, and its records are marked. -/
theorem retain_keeps {i : Option ℕ} (hw : w.Built cn) (h : db.retain w config = some (db', w', i)) :
    (∃ t, db' = db.insert_record t ∧ t.record = config) ∧ w'.Built cn ∧ w'.entries = w.entries ∧
      (Represented w → Represented w') := by
  simp only [retain, Option.bind_eq_bind, Option.bind_eq_some_iff, Prod.exists, Option.pure_def, Option.some.injEq,
    Prod.mk.injEq] at h
  obtain ⟨w₁, b₁, h₁, w₂, b₂, h₂, w₃, b₃, h₃, rfl, rfl, -⟩ := h
  obtain ⟨i₁, e₁, r₁⟩ := store_leg_keeps hw h₁
  obtain ⟨i₂, e₂, r₂⟩ := store_leg_keeps i₁ h₂
  obtain ⟨i₃, e₃, r₃⟩ := store_leg_keeps i₂ h₃
  exact ⟨⟨_, rfl, rfl⟩, i₃, e₃.trans (e₂.trans e₁), fun hr => r₃ (r₂ (r₁ hr))⟩

theorem next_serial_concat (l : List (threepf_kconfig_record K)) (t : threepf_kconfig_record K) (s : ℕ) :
    next_serial (l ++ [t]) s =
      if t.record.serial + 1 > next_serial l s then t.record.serial + 1 else next_serial l s := by
  rw [next_serial, List.foldl_append]
  rfl

theorem kt_of_concat (l : List (threepf_kconfig_record K)) (t : threepf_kconfig_record K) (e : Extremes K) :
    kt_of (l ++ [t]) e = (kt_of l e).update t.record.kt_conventional t.record.kt_comoving := by
  rw [kt_of, List.foldl_append]
  rfl

theorem k_2pf_of_concat (l : List (threepf_kconfig_record K)) (t : threepf_kconfig_record K) (e : Extremes K) :
    k_2pf_of (l ++ [t]) e = update_2pf (k_2pf_of l e) t.record := by
  rw [k_2pf_of, List.foldl_append]
  rfl

theorem lt_next_serial (l : List (threepf_kconfig_record K)) : ∀ t ∈ l, t.record.serial < next_serial l 0 := by
  induction l using List.reverseRecOn with
  | nil => simp
  | append_singleton l u ih =>
    rw [next_serial_concat]
    intro t ht
    rcases List.mem_append.mp ht with ht | ht
    · have := ih t ht
      split_ifs <;> omega
    · obtain rfl := List.mem_singleton.mp ht
      split_ifs <;> omega

/-- A record with the next serial number goes to the end. -/
theorem database_insert_record (above : ∀ x ∈ db.database, x.record.serial < t.record.serial) :
    (db.insert_record t).database = db.database ++ [t] := emplaceBySerial_eq_append above

end threepf_kconfig_database

namespace State

open twopf_kconfig_database threepf_kconfig_database

variable {s s' : State K} {c : Call K} {cn : K}

/-! ### One call -/

/-- What a call leaves as it is. -/
structure Keeps (cn : K) (s s' : State K) : Prop where
  twopf : s'.twopf_db.Built cn
  entries : s.twopf_db.entries ⊆ s'.twopf_db.entries
  represented : Represented s.twopf_db → Represented s'.twopf_db

/-- **One call** adds entries to the twopf database, and either leaves the triangles alone or adds one. -/
theorem apply_cases (h : s.twopf_db.Built cn) (ha : s.apply c = some s') :
    ∃ p, s.threepf_db.populate s.twopf_db (c.config s.threepf_db) = some p ∧
      p.config = { c.config s.threepf_db with
        serial := s.threepf_db.serial
        k1_serial := p.config.k1_serial
        k2_serial := p.config.k2_serial
        k3_serial := p.config.k3_serial } ∧ Keeps cn s s' ∧
      (c.policy p.config ≠ .accept ∧ s'.threepf_db = s.threepf_db ∨
        c.policy p.config = .accept ∧ s'.twopf_db.entries = p.twopf_db.entries ∧
          ∃ t, s'.threepf_db = s.threepf_db.insert_record t ∧ t.record = p.config) := by
  rw [apply_eq] at ha
  obtain ⟨⟨d, w, i⟩, hr, rfl⟩ := Option.map_eq_some_iff.mp ha
  obtain ⟨p, hp, hr⟩ := Option.bind_eq_some_iff.mp hr
  obtain ⟨grown, config⟩ := grown_of_populate h hp
  refine ⟨p, hp, config, ?_⟩
  cases hpol : c.policy p.config with
  | reject_remove =>
    simp only [hpol, Option.bind_eq_bind, Option.bind_eq_some_iff, Option.pure_def, Option.some.injEq,
      Prod.mk.injEq] at hr
    obtain ⟨w₁, u₁, w₂, u₂, w₃, u₃, rfl, rfl, -⟩ := hr
    have back := Grown.unwind h (Grown.unwind h (Grown.unwind h grown u₁) u₂) u₃
    exact ⟨⟨back.built, back.entries_subset, back.represented⟩, .inl ⟨by simp, rfl⟩⟩
  | reject_retain =>
    simp only [hpol, Option.pure_def, Option.some.injEq, Prod.mk.injEq] at hr
    obtain ⟨rfl, rfl, -⟩ := hr
    exact ⟨⟨grown.built, grown.entries_subset, grown.represented⟩, .inl ⟨by simp, rfl⟩⟩
  | accept =>
    simp only [hpol] at hr
    obtain ⟨added, built, entries, represented⟩ := retain_keeps grown.built hr
    exact ⟨⟨built, entries ▸ grown.entries_subset, fun hs => represented (grown.represented hs)⟩,
      .inr ⟨rfl, entries, added⟩⟩

theorem normalized_config {db : threepf_kconfig_database K} (h : db.comoving_normalization = cn) (c : Call K) :
    Normalized cn (c.config db) := by
  subst h
  cases c <;> exact ⟨rfl, rfl, rfl⟩

/-- A triangle that is kept extends what is worked out from the triangles. -/
theorem Built.insert_record (h : Built cn s) (twopf : s'.twopf_db.Built cn) {t : threepf_kconfig_record K}
    (hs' : s'.threepf_db = s.threepf_db.insert_record t) (serial : t.record.serial = s.threepf_db.serial)
    (normalized : Normalized cn t.record) :
    Built cn s' ∧ s'.threepf_db.database = s.threepf_db.database ++ [t] := by
  have above : ∀ x ∈ s.threepf_db.database, x.record.serial < t.record.serial := by
    rw [serial, h.serial]
    exact lt_next_serial _
  have hdb := database_insert_record above
  rw [← hs'] at hdb
  refine ⟨⟨twopf, ?_, ?_, ?_, ?_, ?_, ?_⟩, hdb⟩
  case refine_1 =>
    rw [hdb]
    refine List.pairwise_append.mpr ⟨h.sorted, by simp, fun x hx y hy => ?_⟩
    rw [List.mem_singleton.mp hy]
    exact above x hx
  case refine_2 =>
    rw [hdb, threepf_kconfig_database.next_serial_concat, ← h.serial, serial, if_pos (Nat.lt_succ_self _), hs']
    rfl
  case refine_3 =>
    rw [hdb, kt_of_concat, ← h.kt, hs']
    rfl
  case refine_4 =>
    rw [hdb, k_2pf_of_concat, ← h.k_2pf, hs']
    rfl
  case refine_5 =>
    rw [hs']
    exact h.normalization
  case refine_6 =>
    rw [hdb]
    intro x hx
    rcases List.mem_append.mp hx with hx | hx
    · exact h.comoving x hx
    · exact List.mem_singleton.mp hx ▸ normalized

/-! ### Sequences of additions and deletions -/

/-- An addition to one of the databases, or a deletion. -/
inductive Change (K : Type*) where
  /-- `add_record` of the twopf database. -/
  | add (k_conventional : K)
  /-- `delete_record` of the twopf database. -/
  | delete (serial : ℕ)
  /-- A call that adds a triangle. -/
  | triangle (c : Call K)

/-- The databases after a change, where it is defined. -/
def change (s : State K) : Change K → Option (State K)
  | .add k => some ⟨s.threepf_db, s.twopf_db.add_record k⟩
  | .delete j => (s.twopf_db.delete_record j).map fun w => ⟨s.threepf_db, w⟩
  | .triangle c => s.apply c

/-- A deletion is not of a leg, and leaves each other record a place in the index; a triangle that is accepted has
just the wavenumbers of the records its legs are attached to. -/
def Clean (s : State K) : Change K → Prop
  | .add _ => True
  | .delete j =>
    (∀ leg ∈ s.threepf_db.legs, leg.2 ≠ j) ∧ ∀ t, s.twopf_db.lookup j = some t →
      ∀ e ∈ s.twopf_db.entries, e.2 ≠ j → TolerantIndex.Represents ReverseKLookupComparator
        (TolerantIndex.erase ReverseKLookupComparator t.k_conventional s.twopf_db.index_on_k) e
  | .triangle c => ∀ p, s.threepf_db.populate s.twopf_db (c.config s.threepf_db) = some p →
      c.policy p.config = .accept → p.config.legs ⊆ p.twopf_db.entries

theorem built_create (cn : K) : Built cn (create cn) where
  twopf := twopf_kconfig_database.built_create cn
  sorted := by simp [create, threepf_kconfig_database.create]
  serial := rfl
  kt := rfl
  k_2pf := rfl
  normalization := rfl
  comoving := by simp [create, threepf_kconfig_database.create]

theorem roundTrips_create (cn : K) : RoundTrips cn (create cn) :=
  (roundTrips_iff (built_create cn)).mpr
    ⟨by simp [Represented, entries, create, twopf_kconfig_database.create],
      by simp [threepf_kconfig_database.legs, create, threepf_kconfig_database.create]⟩

/-- A deletion from a twopf database. -/
theorem delete_step (h : Built cn s) {j : ℕ} (hc : change s (.delete j) = some s') :
    Built cn s' ∧ (RoundTrips cn s → (RoundTrips cn s' ↔ Clean s (.delete j))) := by
  obtain ⟨w, hw, rfl⟩ := Option.map_eq_some_iff.mp hc
  have built : Built cn ⟨s.threepf_db, w⟩ :=
    ⟨h.twopf.delete_record hw, h.sorted, h.serial, h.kt, h.k_2pf, h.normalization, h.comoving⟩
  refine ⟨built, fun before => ?_⟩
  obtain ⟨-, sub⟩ := (roundTrips_iff h).mp before
  obtain ⟨t, ht, hdb, hidx⟩ := of_delete_record hw
  have left : ∀ e, e ∈ w.entries ↔ e ∈ s.twopf_db.entries ∧ e.2 ≠ j := fun e => by
    simp only [entries, hdb, List.mem_map, List.mem_filter, decide_eq_true_eq]
    constructor
    · rintro ⟨r, ⟨hr, hs⟩, rfl⟩
      exact ⟨⟨r, hr, rfl⟩, hs⟩
    · rintro ⟨⟨r, hr, rfl⟩, hs⟩
      exact ⟨r, ⟨hr, hs⟩, rfl⟩
  rw [roundTrips_iff built, and_comm]
  refine and_congr ?_ ?_
  · exact forall₂_congr fun leg hleg => (left leg).trans (and_iff_right (sub hleg))
  · simp only [Represented, left, hidx, and_imp, ht, Option.some.injEq, forall_eq']

/-- A call that adds a triangle. -/
theorem triangle_step (h : Built cn s) (hc : change s (.triangle c) = some s') :
    Built cn s' ∧ (RoundTrips cn s → (RoundTrips cn s' ↔ Clean s (.triangle c))) := by
  obtain ⟨p, hp, config, keeps, ⟨hpol, same⟩ | ⟨hpol, entries, t, added, ht⟩⟩ := apply_cases h.twopf hc
  · have built : Built cn s' := by
      refine ⟨keeps.twopf, ?_, ?_, ?_, ?_, ?_, ?_⟩ <;> rw [same]
      exacts [h.sorted, h.serial, h.kt, h.k_2pf, h.normalization, h.comoving]
    refine ⟨built, fun before => iff_of_true ?_ ?_⟩
    · obtain ⟨represented, sub⟩ := (roundTrips_iff h).mp before
      exact (roundTrips_iff built).mpr
        ⟨keeps.represented represented, same ▸ List.Subset.trans sub keeps.entries⟩
    · intro p' hp' haccept
      obtain rfl := Option.some.inj (hp.symm.trans hp')
      exact absurd haccept hpol
  · have serial : t.record.serial = s.threepf_db.serial := by rw [ht, config]
    have normalized : Normalized cn t.record := by
      rw [ht, config]
      exact normalized_config h.normalization c
    obtain ⟨built, hdb⟩ := h.insert_record keeps.twopf added serial normalized
    refine ⟨built, fun before => ?_⟩
    obtain ⟨represented, sub⟩ := (roundTrips_iff h).mp before
    have legs : s'.threepf_db.legs = s.threepf_db.legs ++ p.config.legs := by
      rw [threepf_kconfig_database.legs, hdb, List.flatMap_append, ← ht]
      simp [threepf_kconfig_database.legs]
    rw [roundTrips_iff built, and_iff_right (keeps.represented represented), legs, List.append_subset,
      and_iff_right (List.Subset.trans sub keeps.entries), entries]
    constructor
    · intro own p' hp' _
      obtain rfl := Option.some.inj (hp.symm.trans hp')
      exact own
    · exact fun clean => clean p hp hpol

theorem change_step (s : State K) (c : Change K) (s' : State K) (h : Built cn s) (hc : change s c = some s') :
    Built cn s' ∧ (RoundTrips cn s → (RoundTrips cn s' ↔ Clean s c)) := by
  cases c with
  | add k =>
    obtain rfl : (⟨s.threepf_db, s.twopf_db.add_record k⟩ : State K) = s' := Option.some.inj hc
    have built : Built cn ⟨s.threepf_db, s.twopf_db.add_record k⟩ :=
      ⟨h.twopf.add_record k, h.sorted, h.serial, h.kt, h.k_2pf, h.normalization, h.comoving⟩
    refine ⟨built, fun before => iff_of_true ?_ trivial⟩
    obtain ⟨represented, sub⟩ := (roundTrips_iff h).mp before
    refine (roundTrips_iff built).mpr ⟨represented.add_record h.twopf k, List.Subset.trans sub ?_⟩
    rw [entries, entries, database_add_record h.twopf.above]
    exact List.map_subset _ (List.subset_append_left _ _)
  | delete j => exact delete_step h hc
  | triangle c => exact triangle_step h hc

/-- **In good order**: what the databases keep beside the records is what the constructors work out. -/
theorem built_of_changes {changes : List (Change K)} (h : changes.foldlM change (create cn) = some s) :
    Built cn s :=
  System.Run.invariant (S := System.ofNext (· = create cn) change)
    (fun s c s' hb hs => (change_step s c s' hb hs).1)
    (System.run_ofNext_of_foldlM h) (built_create cn)

/-- **Round trips**: all along a run, what is written is read back as it was if and only if every change is
clean. -/
theorem round_trips_iff (cn : K) (changes : List (Change K)) (h : changes.foldlM change (create cn) = some s) :
    System.StatesSatisfy change (RoundTrips cn) (create cn) changes ↔
      System.StepsSatisfy change Clean (create cn) changes :=
  System.statesSatisfy_iff_of_foldlM change_step h (built_create cn) (roundTrips_create cn)

/-- A triangle with legs in common, a wavenumber that is found already, and a deletion of it. -/
def well_kept : List (Change ℚ) :=
  [.triangle (.k1k2k3 1 1 2 fun _ => .accept), .add 3, .delete 2, .triangle (.k1k2k3 2 2 2 fun _ => .accept)]

theorem round_trips_iff_well_kept : System.StatesSatisfy change (RoundTrips 1) (create 1) well_kept ↔
    System.StepsSatisfy change Clean (create 1) well_kept := by
  have defined : (well_kept.foldlM change (create 1)).isSome := by decide +kernel
  obtain ⟨s, hs⟩ := Option.isSome_iff_exists.mp defined
  exact round_trips_iff 1 well_kept hs

/-- A triangle whose legs are all attached to the record of the first, and a wavenumber added twice and deleted
once: neither survives. -/
theorem not_round_trips :
    (∃ s : State ℚ, [Change.triangle (.k1k2k3 1 1.000001 1 fun _ => .accept)].foldlM change (create 1) = some s ∧
      ¬ RoundTrips 1 s) ∧
    ∃ s : State ℚ, [Change.add 1, .add 1, .delete 1].foldlM change (create 1) = some s ∧ ¬ RoundTrips 1 s := by
  constructor
  · have found : ([Change.triangle (.k1k2k3 1 1.000001 1 fun _ => .accept)].foldlM change (create (1 : ℚ))).any
        (fun s => s.threepf_db.legs.any fun leg => leg ∉ s.twopf_db.entries) = true := by decide +kernel
    obtain ⟨s, hs, hany⟩ := (Option.any_eq_true _ _).mp found
    refine ⟨s, hs, fun back => ?_⟩
    obtain ⟨leg, hleg, absent⟩ := List.any_eq_true.mp hany
    exact of_decide_eq_true absent (((roundTrips_iff (built_of_changes hs)).mp back).2 hleg)
  · have found : ([Change.add 1, .add 1, .delete 1].foldlM change (create (1 : ℚ))).any
        (fun s => s.twopf_db.index_on_k.isEmpty && !s.twopf_db.entries.isEmpty) = true := by decide +kernel
    obtain ⟨s, hs, hany⟩ := (Option.any_eq_true _ _).mp found
    refine ⟨s, hs, fun back => ?_⟩
    obtain ⟨empty, some⟩ := Bool.and_eq_true_iff.mp hany
    obtain ⟨e, he⟩ := List.exists_mem_of_ne_nil s.twopf_db.entries (by simpa using some)
    obtain ⟨x, hx, -⟩ := ((roundTrips_iff (built_of_changes hs)).mp back).1 e he
    rw [List.isEmpty_iff.mp empty] at hx
    cases hx

end State

end Kconfig

end CppTransport.Runtime
