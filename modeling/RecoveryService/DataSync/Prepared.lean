import RecoveryService.DataSync.Patch

/-! # What is prepared for a run

The copies `prepare` makes are the enabled and selected mappings in their order, each under its id or,
without one, under a new id.  Where none is taken, a task without a catalog and a schema of its own
still runs, with one mapping of its top-level fields. -/

namespace DataSync

open Checks

section

variable {py : Python} {fresh : ℕ → String}

/-- `uuid4` gives texts that are no keys of the mappings at hand. -/
structure FreshIds (py : Python) (fresh : ℕ → String) (raw : List Dict) : Prop where
  ne : ∀ k, fresh k ≠ ""
  new : ∀ k, ∀ item ∈ raw, mappingKey py item ≠ fresh k

variable {config : Dict}
variable {item copy : Dict}

theorem normalizeNames_id {id : String} (h : normalizeNames py id item config = .ok copy) : copy.get "id" =
      .str (if (item.get "id").truthy then py.str (item.get "id") else id) := by
  unfold normalizeNames at h
  obtain ⟨schema, -, h⟩ := bind_eq_ok.mp h
  obtain ⟨table, -, h⟩ := bind_eq_ok.mp h
  obtain ⟨database, -, h⟩ := bind_eq_ok.mp h
  obtain ⟨target, -, h⟩ := bind_eq_ok.mp h
  cases h
  rw [Dict.get_set_ne _ _ (by decide), Dict.get_set_ne _ _ (by decide),
    Dict.get_set_ne _ _ (by decide), Dict.get_set_ne _ _ (by decide),
    Dict.get_set_ne _ _ (by decide), Dict.get_set_self]

theorem normalizeTableMapping_id {id : String} (h : normalizeTableMapping py id item config = .ok copy) : copy.get "id" =
      .str (if (item.get "id").truthy then py.str (item.get "id") else id) := by
  unfold normalizeTableMapping at h
  obtain ⟨mapping, hmapping, h⟩ := bind_eq_ok.mp h
  obtain ⟨policy, -, h⟩ := bind_eq_ok.mp h
  cases h
  rw [Dict.get_set_ne _ _ (by decide), Dict.get_set_ne _ _ (by decide),
    Dict.get_set_ne _ _ (by decide), Dict.get_set_ne _ _ (by decide),
    Dict.get_set_ne _ _ (by decide)]
  exact normalizeNames_id hmapping

theorem mappingKey_of_id {id : String} (h : item.get "id" = .str id) (hne : id ≠ "") :
    mappingKey py item = id := by
  have htruthy : (Json.str id).truthy = true := by simpa [Json.truthy] using hne
  unfold mappingKey orElse
  rw [h, if_pos htruthy, py.str_str]

/-- A mapping with an id keeps its key, another one is known by its new id. -/
theorem normalizeTableMapping_copied {keys : List String} {id : String}
    (h : normalizeTableMapping py id item config = .ok copy) (hne : id ≠ "") (hnew : id ∉ keys) :
    Copied py keys item copy := by
  have hid := normalizeTableMapping_id h
  constructor
  · intro htruthy
    rw [if_pos htruthy] at hid
    rw [mappingKey_of_id hid (py.str_ne _ htruthy)]
    unfold mappingKey orElse
    rw [if_pos htruthy]
  · intro hfalse
    rw [hfalse, if_neg (by decide)] at hid
    rw [mappingKey_of_id hid hne]
    exact hnew

variable {items : List Dict}

theorem normalizeMappings_copies {copies : List Dict} {k : ℕ}
    (h : normalizeMappings py fresh config items k = .ok copies) :
    List.Forall₂ (fun item copy => ∃ j, normalizeTableMapping py (fresh j) item config = .ok copy)
      items copies := by
  induction items generalizing k copies with
  | nil =>
      cases h
      exact .nil
  | cons item rest ih =>
      unfold normalizeMappings at h
      obtain ⟨mapping, hmapping, h⟩ := bind_eq_ok.mp h
      obtain ⟨mappings, hmappings, h⟩ := bind_eq_ok.mp h
      cases h
      exact .cons ⟨k, hmapping⟩ (ih hmappings)

variable {maxTableParallelism : ℤ}
variable {normalized : Normalized}

theorem normalizeBatch_copies (h : normalizeBatch py fresh maxTableParallelism config items = .ok normalized) :
    ∃ clean, List.Forall₂
      (fun item copy => ∃ j, normalizeTableMapping py (fresh j) item clean = .ok copy)
      items normalized.mappings := by
  unfold normalizeBatch at h
  obtain ⟨clean, -, h⟩ := bind_eq_ok.mp h
  obtain ⟨parallelism, -, h⟩ := bind_eq_ok.mp h
  obtain ⟨mappings, hmappings, h⟩ := bind_eq_ok.mp h
  cases h
  exact ⟨_, normalizeMappings_copies hmappings⟩

/-- The mapping of a task with one table has a new id. -/
theorem legacyToBatchConfig_mapping
    (h : legacyToBatchConfig py fresh maxTableParallelism config = .ok normalized) (hne : fresh 0 ≠ "") :
    ∃ m, normalized.mappings = [m] ∧ m.get "id" = .str (fresh 0) := by
  unfold legacyToBatchConfig at h
  obtain ⟨_, -, h⟩ := bind_eq_ok.mp h
  obtain ⟨clean, hcopies⟩ := normalizeBatch_copies h
  obtain ⟨m, rest, ⟨j, hm⟩, hrest, hmappings⟩ := List.forall₂_cons_left_iff.mp hcopies
  rw [List.forall₂_nil_left_iff] at hrest
  refine ⟨m, by rw [hmappings, hrest], ?_⟩
  have hid := normalizeTableMapping_id hm
  rw [Dict.get_cons_self] at hid
  have htruthy : (Json.str (fresh 0)).truthy = true := by simpa [Json.truthy] using hne
  rw [hid, if_pos htruthy, py.str_str]

/-- The copies of a configuration, or the one mapping of a task whose mappings are all left out. -/
theorem normalizeConfig_copies (h : normalizeConfig py fresh maxTableParallelism config items = .ok normalized)
    (hne : fresh 0 ≠ "") : (∃ clean, List.Forall₂
      (fun item copy => ∃ j, normalizeTableMapping py (fresh j) item clean = .ok copy)
      items normalized.mappings) ∨
    (items = [] ∧ ∃ m, normalized.mappings = [m] ∧ m.get "id" = .str (fresh 0)) := by
  unfold normalizeConfig at h
  split at h
  · exact Or.inl (normalizeBatch_copies h)
  · rename_i hbatch
    refine Or.inr ⟨?_, legacyToBatchConfig_mapping h hne⟩
    unfold isBatch at hbatch
    simp only [Bool.or_eq_true, not_or, Bool.not_eq_true, Bool.not_eq_false'] at hbatch
    exact List.isEmpty_iff.mp hbatch.1.1

/-- What `prepare` returns. -/
structure Prepares (py : Python) (fresh : ℕ → String) (maxTableParallelism : ℤ) (config : Dict)
    (raw : List Dict) (p : Prepared) : Prop where
  selected : p.selected = selectedTables py config
  originals : p.originals = if raw = [] then p.tableMappings else raw
  runs : p.runnable py ≠ []
  copies : ∃ normalized, normalizeConfig py fresh maxTableParallelism config
    (raw.filter (isRunnable py p.selected)) = .ok normalized ∧ p.tableMappings = normalized.mappings

theorem prepare_prepares {engine target : Engine} {raw : List Dict} {p : Prepared}
    (h : prepare py fresh maxTableParallelism engine target config = .ok p)
    (hraw : rawMappings config = some raw) : Prepares py fresh maxTableParallelism config raw p := by
  unfold prepare at h
  obtain ⟨_, -, h⟩ := bind_eq_ok.mp h
  obtain ⟨_, -, h⟩ := bind_eq_ok.mp h
  rw [hraw] at h
  obtain ⟨normalized, hnormalized, h⟩ := bind_eq_ok.mp h
  obtain ⟨catalog, -, h⟩ := bind_eq_ok.mp h
  obtain ⟨method, -, h⟩ := bind_eq_ok.mp h
  split at h
  · cases h
  split at h
  · cases h
  · rename_i hruns
    cases h
    exact ⟨rfl, rfl, hruns, normalized, hnormalized, rfl⟩

/-! ### Parts of a prepared run -/

variable {config : Dict} {raw : List Dict} {p : Prepared}

/-- The copies lie beside their originals; a mapping made of the top-level fields has a new key. -/
theorem Prepares.lined (h : Prepares py fresh maxTableParallelism config raw p)
    (hfresh : FreshIds py fresh raw) :
    (Lined py p.selected (p.originals.map (mappingKey py)) p.originals p.tableMappings 0
      (p.parts py)) ∨
    (p.parts py = p.originals.map (fun original => { original := original }) ∧
      ∃ m, p.tableMappings = [m] ∧ ∀ original ∈ p.originals,
        mappingKey py m ≠ mappingKey py original) := by
  obtain ⟨normalized, hnormalized, hmappings⟩ := h.copies
  have hcopies := normalizeConfig_copies hnormalized (hfresh.ne 0)
  rw [← hmappings] at hcopies
  have horiginals := h.originals
  obtain ⟨clean, hcopies⟩ | ⟨hnone, m, hm, hid⟩ := hcopies
  · left
    apply parts_lined
    by_cases hraw : raw = []
    · rw [hraw, List.filter_nil, List.forall₂_nil_left_iff] at hcopies
      have hruns := h.runs
      unfold Prepared.runnable at hruns
      rw [hcopies] at hruns
      exact absurd rfl hruns
    · rw [if_neg hraw] at horiginals
      rw [horiginals]
      refine hcopies.imp ?_
      rintro item copy ⟨j, hj⟩
      apply normalizeTableMapping_copied hj (hfresh.ne j)
      rw [List.mem_map]
      rintro ⟨other, hother, hkey⟩
      exact hfresh.new j other hother hkey
  · have hkey : mappingKey py m = fresh 0 := mappingKey_of_id hid (hfresh.ne 0)
    by_cases hraw : raw = []
    · left
      rw [if_pos hraw, hm] at horiginals
      have hruns := h.runs
      unfold Prepared.runnable at hruns
      rw [hm] at hruns
      have hrun : isRunnable py p.selected m = true := by
        by_contra hnot
        rw [List.filter_cons_of_neg hnot] at hruns
        exact hruns rfl
      apply parts_lined
      rw [horiginals, hm, List.filter_cons_of_pos hrun, List.filter_nil]
      refine .cons ⟨fun _ => rfl, fun hfalse => ?_⟩ .nil
      have htruthy : (Json.str (fresh 0)).truthy = true := by
        simpa [Json.truthy] using hfresh.ne 0
      rw [hid, htruthy] at hfalse
      cases hfalse
    · right
      rw [if_neg hraw] at horiginals
      refine ⟨?_, m, hm, ?_⟩
      · unfold Prepared.parts
        rw [horiginals]
        exact parts_out hnone
      · rw [horiginals, hkey]
        exact fun original ho he => hfresh.new 0 original ho he.symm

end

end DataSync
