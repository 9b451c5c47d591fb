import RecoveryService.DataSync.Config
import RecoveryService.Lib.Checks

/-! # The configuration patch of a run

Behind the tables `execute_data_sync` gives a list of mappings back: for every mapping of the
configuration the copy `by_id` has for its key `id or source_table`, or the mapping itself.  A `Part`
says what became of a mapping in the run, and `Faithful` what its entry of the patch should be. -/

namespace DataSync

/-- A mapping of the configuration in a run: its cleaned copy when the mapping is enabled and selected,
and the number of the copy among the tables of the run when the copy is enabled and selected too. -/
structure Part where
  original : Dict
  copy : Option Dict := none
  number : Option ℕ := none

/-- The tables of a mapping. -/
def ownTables : List String := ["source_schema", "source_table", "target_database", "target_table"]

/-- The entry of a mapping that is not run is the mapping; the one of a mapping that is run has the
tables of its copy and the result of its table. -/
structure Faithful (tableResults : List Dict) (part : Part) (entry : Dict) : Prop where
  unchanged : part.number = none → entry = part.original
  own : part.number ≠ none → ∀ copy, part.copy = some copy → ∀ key ∈ ownTables,
    entry.get key = copy.get key
  carries : ∀ k, part.number = some k → ∃ result, tableResults[k]? = some result ∧
    entry.get "last_result" = .obj result

section

variable (py : Python) (selected : List String)

/-- The parts of the mappings `originals` with the copies of those that are enabled and selected;
`k` counts the tables of the run. -/
def parts : List Dict → List Dict → ℕ → List Part
  | [], _, _ => []
  | original :: originals, copies, k =>
      if isRunnable py selected original then
        match copies with
        | [] => { original := original } :: parts originals [] k
        | copy :: copies =>
            if isRunnable py selected copy then
              { original := original, copy := some copy, number := some k } ::
                parts originals copies (k + 1)
            else { original := original, copy := some copy } :: parts originals copies k
      else { original := original } :: parts originals copies k

def Prepared.parts (p : Prepared) : List Part :=
  DataSync.parts py p.selected p.originals p.tableMappings 0

/-- Every mapping that is run has an id, every copy of a mapping with an id is run, and a mapping that
is run shares its key with no other mapping of the configuration. -/
structure KeysApart (parts : List Part) : Prop where
  named : ∀ part ∈ parts, part.number ≠ none → (part.original.get "id").truthy = true
  kept : ∀ part ∈ parts, part.copy ≠ none → (part.original.get "id").truthy = true →
    part.number ≠ none
  apart : ∀ part ∈ parts, ∀ other ∈ parts, other.number ≠ none →
    mappingKey py other.original = mappingKey py part.original → other = part

/-! ### Parts and copies -/

/-- What the cleaning does to the key of a mapping. -/
structure Copied (keys : List String) (original copy : Dict) : Prop where
  kept : (original.get "id").truthy = true → mappingKey py copy = mappingKey py original
  renamed : (original.get "id").truthy = false → mappingKey py copy ∉ keys

/-- The copies in the order of the mappings they are copied from. -/
inductive Lined (keys : List String) : List Dict → List Dict → ℕ → List Part → Prop
  | nil {k} : Lined keys [] [] k []
  | out {original originals copies k ps} (h : isRunnable py selected original = false)
      (rest : Lined keys originals copies k ps) :
      Lined keys (original :: originals) copies k ({ original := original } :: ps)
  | dropped {original originals copy copies k ps} (h : isRunnable py selected original = true)
      (hcopy : isRunnable py selected copy = false) (copied : Copied py keys original copy)
      (rest : Lined keys originals copies k ps) :
      Lined keys (original :: originals) (copy :: copies) k
        ({ original := original, copy := some copy } :: ps)
  | run {original originals copy copies k ps} (hcopy : isRunnable py selected copy = true)
      (copied : Copied py keys original copy) (rest : Lined keys originals copies (k + 1) ps) :
      Lined keys (original :: originals) (copy :: copies) k
        ({ original := original, copy := some copy, number := some k } :: ps)

variable {py selected} {keys : List String} {originals copies : List Dict} {k : ℕ} {ps : List Part}

theorem parts_lined (h : List.Forall₂ (Copied py keys) (originals.filter (isRunnable py selected))
    copies) : Lined py selected keys originals copies k (parts py selected originals copies k) := by
  induction originals generalizing copies k with
  | nil =>
      cases h
      exact .nil
  | cons original originals ih =>
      unfold parts
      cases hrun : isRunnable py selected original with
      | false =>
          rw [List.filter_cons_of_neg (by rw [hrun]; decide)] at h
          rw [if_neg (by decide)]
          exact .out hrun (ih h)
      | true =>
          rw [List.filter_cons_of_pos hrun] at h
          rw [if_pos rfl]
          cases h with
          | cons hcopied hrest =>
              rename_i copy copies
              simp only
              cases hcopy : isRunnable py selected copy with
              | false =>
                  rw [if_neg (by decide)]
                  exact .dropped hrun hcopy hcopied (ih hrest)
              | true =>
                  rw [if_pos rfl]
                  exact .run hcopy hcopied (ih hrest)

/-- No mapping is taken: the copies belong to none. -/
theorem parts_out (h : originals.filter (isRunnable py selected) = []) :
    parts py selected originals copies k = originals.map fun original => { original := original } := by
  induction originals with
  | nil => rfl
  | cons original originals ih =>
      cases hrun : isRunnable py selected original with
      | false =>
          rw [List.filter_cons_of_neg (by rw [hrun]; decide)] at h
          unfold parts
          rw [hrun, if_neg (by decide), ih h, List.map_cons]
      | true =>
          rw [List.filter_cons_of_pos hrun] at h
          cases h

theorem Lined.map_original (h : Lined py selected keys originals copies k ps) :
    ps.map Part.original = originals := by
  induction h with
  | nil => rfl
  | out _ _ ih | dropped _ _ _ _ ih | run _ _ _ ih => rw [List.map_cons, ih]

/-- A copy is one of a mapping that is enabled and selected, and it is run when it is so itself. -/
theorem Lined.copied (h : Lined py selected keys originals copies k ps) :
    ∀ part ∈ ps, ∀ copy, part.copy = some copy → Copied py keys part.original copy ∧
      (part.number = none → isRunnable py selected part.original = true ∧
        isRunnable py selected copy = false) := by
  induction h with
  | nil => nofun
  | out _ _ ih =>
      intro part hpart copy hcopy
      obtain rfl | hpart := List.mem_cons.mp hpart
      · cases hcopy
      · exact ih part hpart copy hcopy
  | dropped hrun hdropped hcopied _ ih =>
      intro part hpart copy hcopy
      obtain rfl | hpart := List.mem_cons.mp hpart
      · cases hcopy
        exact ⟨hcopied, fun _ => ⟨hrun, hdropped⟩⟩
      · exact ih part hpart copy hcopy
  | run _ hcopied _ ih =>
      intro part hpart copy hcopy
      obtain rfl | hpart := List.mem_cons.mp hpart
      · cases hcopy
        exact ⟨hcopied, nofun⟩
      · exact ih part hpart copy hcopy

/-- The tables of the run are the copies with a number. -/
theorem Lined.numbered (h : Lined py selected keys originals copies k ps) :
    ∀ part ∈ ps, ∀ i, part.number = some i → k ≤ i ∧ ∃ copy, part.copy = some copy ∧
      (copies.filter (isRunnable py selected))[i - k]? = some copy := by
  induction h with
  | nil => nofun
  | out _ _ ih =>
      intro part hpart i hi
      obtain rfl | hpart := List.mem_cons.mp hpart
      · cases hi
      · exact ih part hpart i hi
  | dropped _ hdropped _ _ ih =>
      intro part hpart i hi
      obtain rfl | hpart := List.mem_cons.mp hpart
      · cases hi
      · rw [List.filter_cons_of_neg (by rw [hdropped]; decide)]
        exact ih part hpart i hi
  | @run original originals copy copies k ps hcopy _ _ ih =>
      intro part hpart i hi
      rw [List.filter_cons_of_pos hcopy]
      obtain rfl | hpart := List.mem_cons.mp hpart
      · cases hi
        refine ⟨Nat.le_refl k, copy, rfl, ?_⟩
        rw [Nat.sub_self, List.getElem?_cons_zero]
      · obtain ⟨hle, other, hother, hget⟩ := ih part hpart i hi
        refine ⟨by omega, other, hother, ?_⟩
        have hsub : i - k = i - (k + 1) + 1 := by omega
        rw [hsub, List.getElem?_cons_succ, hget]

theorem Lined.number_inj (h : Lined py selected keys originals copies k ps) :
    ∀ part ∈ ps, ∀ other ∈ ps, ∀ i, part.number = some i → other.number = some i →
      other = part := by
  induction h with
  | nil => nofun
  | out _ _ ih | dropped _ _ _ _ ih =>
      intro part hpart other hother i hi hj
      obtain rfl | hpart := List.mem_cons.mp hpart
      · cases hi
      obtain rfl | hother := List.mem_cons.mp hother
      · cases hj
      exact ih part hpart other hother i hi hj
  | run _ _ hrest ih =>
      intro part hpart other hother i hi hj
      obtain rfl | hpart := List.mem_cons.mp hpart
      · obtain rfl | hother := List.mem_cons.mp hother
        · rfl
        · have hle := (hrest.numbered other hother i hj).1
          cases hi
          omega
      · obtain rfl | hother := List.mem_cons.mp hother
        · have hle := (hrest.numbered part hpart i hi).1
          cases hj
          omega
        · exact ih part hpart other hother i hi hj

/-- The mapping a part leaves in `table_mappings`. -/
def Part.final (mappings : ℕ → Dict) (part : Part) (copy : Dict) : Dict :=
  match part.number with
  | some k => mappings k
  | none => copy

variable {mappings : ℕ → Dict} {part : Part}

theorem Part.final_of_some {i : ℕ} (h : part.number = some i) (copy : Dict) : part.final mappings copy = mappings i := by
  unfold Part.final
  rw [h]

theorem Part.final_of_none (h : part.number = none) (copy : Dict) : part.final mappings copy = copy := by
  unfold Part.final
  rw [h]

theorem Lined.mem_final (h : Lined py selected keys originals copies k ps) (mappings : ℕ → Dict)
    (f : Dict) : f ∈ finalMappings py selected mappings copies k ↔
      ∃ part ∈ ps, ∃ copy, part.copy = some copy ∧ f = part.final mappings copy := by
  induction h with
  | nil => simp [finalMappings]
  | out _ _ ih => simp [ih]
  | dropped _ hdropped _ _ ih => simp [finalMappings, hdropped, ih, Part.final]
  | run hcopy _ _ ih => simp [finalMappings, hcopy, ih, Part.final]

/-! ### The entries of the patch -/

theorem byId_some {mappings : List Dict} {key : String} {f : Dict}
    (h : byId py mappings key = some f) : f ∈ mappings ∧ mappingKey py f = key := by
  unfold byId at h
  refine ⟨List.mem_reverse.mp (List.mem_of_find?_eq_some h), ?_⟩
  simpa using List.find?_some h

theorem byId_of_mem {mappings : List Dict} {key : String} {f : Dict} (hf : f ∈ mappings)
    (hkey : mappingKey py f = key) : ∃ g, byId py mappings key = some g := by
  unfold byId
  rw [← Option.isSome_iff_exists, List.find?_isSome]
  exact ⟨f, List.mem_reverse.mpr hf, by simpa using hkey⟩

theorem get_written_ne {key : String} (d : Dict) (v : Json)
    (h : key ∉ "_runtime_write_started" :: tableKeys) : (d.set "last_result" v).get key = d.get key :=
  get_set_written d v h (by decide)

/-- What lies under a key before and behind the run: the copies that are run changed to mappings with
the property `Q` and the same key. -/
theorem byId_final (py : Python) (selected : List String) (copies : List Dict) (k : ℕ) {Q : Dict → Dict → Prop}
    (hkey : ∀ copy f, Q copy f → mappingKey py f = mappingKey py copy)
    (hQ : ∀ i copy, (copies.filter (isRunnable py selected))[i]? = some copy →
      Q copy (mappings (k + i))) (key : String) :
    (byId py copies key = none ∧ byId py (finalMappings py selected mappings copies k) key = none) ∨
      ∃ copy f, byId py copies key = some copy ∧
        byId py (finalMappings py selected mappings copies k) key = some f ∧
        (if isRunnable py selected copy = true then Q copy f else f = copy) := by
  have hlist : List.Forall₂
      (fun copy f => if isRunnable py selected copy = true then Q copy f else f = copy)
      copies (finalMappings py selected mappings copies k) := by
    induction copies generalizing k with
    | nil => exact .nil
    | cons copy copies ih =>
        unfold finalMappings
        split
        · rename_i hrun
          rw [List.filter_cons_of_pos hrun] at hQ
          refine .cons ?_ (ih (k + 1) fun i other hother => ?_)
          · rw [if_pos hrun]
            exact hQ 0 copy List.getElem?_cons_zero
          · have hnext := hQ (i + 1) other (by rw [List.getElem?_cons_succ, hother])
            have hsum : k + (i + 1) = k + 1 + i := by omega
            rwa [hsum] at hnext
        · rename_i hrun
          rw [List.filter_cons_of_neg hrun] at hQ
          refine .cons ?_ (ih k hQ)
          rw [if_neg hrun]
  unfold byId
  apply Loops.find?_forall₂ (List.forall₂_reverse_iff.mpr hlist)
  intro copy f hrel
  have hsame : mappingKey py f = mappingKey py copy := by
    split at hrel
    · exact hkey copy f hrel
    · rw [hrel]
  rw [hsame]

/-- What the run of a table leaves: the mapping carries the result, and all that no table writes is as
in the copy. -/
structure Ran (tableResults : List Dict) (k : ℕ) (copy mapping : Dict) : Prop where
  carries : ∃ result, tableResults[k]? = some result ∧ mapping.get "last_result" = .obj result
  kept : ∀ key ∉ "_runtime_write_started" :: tableKeys, mapping.get key = copy.get key

theorem Ran.key {tableResults : List Dict} {copy mapping : Dict} (h : Ran tableResults k copy mapping) :
    mappingKey py mapping = mappingKey py copy := by
  unfold mappingKey
  rw [h.kept "id" (by decide), h.kept "source_table" (by decide)]

/-- The entry of a mapping in the patch. -/
def entry (py : Python) (final : List Dict) (original : Dict) : Dict :=
  (byId py final (mappingKey py original)).getD original

/-- What holds behind the tables: `final` has the copies with the marks of the run, beside mappings
with keys of no original. -/
structure Patched (py : Python) (selected : List String) (ps : List Part) (final : List Dict)
    (mappings : ℕ → Dict) (tableResults : List Dict) : Prop where
  copied : ∀ part ∈ ps, ∀ copy, part.copy = some copy →
    Copied py (ps.map fun part => mappingKey py part.original) part.original copy ∧
      (part.number = none → isRunnable py selected part.original = true ∧
        isRunnable py selected copy = false)
  ran : ∀ part ∈ ps, ∀ i, part.number = some i →
    ∃ copy, part.copy = some copy ∧ Ran tableResults i copy (mappings i)
  number_inj : ∀ part ∈ ps, ∀ other ∈ ps, ∀ i, part.number = some i → other.number = some i →
    other = part
  mem_final : ∀ part ∈ ps, ∀ f, mappingKey py f = mappingKey py part.original →
    (f ∈ final ↔ ∃ other ∈ ps, ∃ copy, other.copy = some copy ∧ f = other.final mappings copy)

variable {final : List Dict} {mappings : ℕ → Dict} {tableResults : List Dict}

/-- The key of what a part leaves is the key of its copy. -/
theorem Patched.final_key (h : Patched py selected ps final mappings tableResults) (hpart : part ∈ ps)
    {copy : Dict} (hcopy : part.copy = some copy) :
    mappingKey py (part.final mappings copy) = mappingKey py copy := by
  cases hn : part.number with
  | none => rw [Part.final_of_none hn]
  | some i =>
      obtain ⟨copy', hcopy', hran⟩ := h.ran part hpart i hn
      rw [hcopy, Option.some.injEq] at hcopy'
      rw [Part.final_of_some hn, hcopy']
      exact hran.key

/-- The key of a mapping leads to the copy of a mapping with the same key and an id. -/
theorem Patched.of_key (h : Patched py selected ps final mappings tableResults) (hpart : part ∈ ps) {f : Dict}
    (hf : f ∈ final) (hkey : mappingKey py f = mappingKey py part.original) :
    ∃ other ∈ ps, ∃ copy, other.copy = some copy ∧ f = other.final mappings copy ∧
      (other.original.get "id").truthy = true ∧
      mappingKey py other.original = mappingKey py part.original := by
  obtain ⟨other, hother, copy, hcopy, rfl⟩ := (h.mem_final part hpart f hkey).mp hf
  rw [h.final_key hother hcopy] at hkey
  have hcopied := (h.copied other hother copy hcopy).1
  cases hid : (other.original.get "id").truthy with
  | false =>
      have hmem : mappingKey py copy ∈ ps.map fun part => mappingKey py part.original :=
        List.mem_map.mpr ⟨part, hpart, hkey.symm⟩
      exact absurd hmem (hcopied.renamed hid)
  | true => exact ⟨other, hother, copy, hcopy, rfl, hid, (hcopied.kept hid).symm.trans hkey⟩

/-- The copy of a mapping with an id is found under the key of the mapping. -/
theorem Patched.mem_of_id (h : Patched py selected ps final mappings tableResults) (hpart : part ∈ ps)
    {copy : Dict} (hcopy : part.copy = some copy) (hid : (part.original.get "id").truthy = true) :
    part.final mappings copy ∈ final ∧
      mappingKey py (part.final mappings copy) = mappingKey py part.original := by
  have hkey : mappingKey py (part.final mappings copy) = mappingKey py part.original :=
    (h.final_key hpart hcopy).trans ((h.copied part hpart copy hcopy).1.kept hid)
  exact ⟨(h.mem_final part hpart _ hkey).mpr ⟨part, hpart, copy, hcopy, rfl⟩, hkey⟩

theorem Patched.faithful (h : Patched py selected ps final mappings tableResults) (hkeys : KeysApart py ps)
    (hpart : part ∈ ps) : Faithful tableResults part (entry py final part.original) := by
  -- what lies under the key of the mapping is what its own run has left
  have hown : ∀ f ∈ final, mappingKey py f = mappingKey py part.original →
      ∃ i, part.number = some i ∧ f = mappings i := by
    intro f hf hkey
    obtain ⟨other, hother, copy, hcopy, hfinal, hid, hsame⟩ := h.of_key hpart hf hkey
    have hnumber := hkeys.kept other hother (by rw [hcopy]; exact Option.some_ne_none copy) hid
    have heq := hkeys.apart part hpart other hother hnumber hsame
    subst heq
    obtain ⟨i, hi⟩ := Option.ne_none_iff_exists'.mp hnumber
    exact ⟨i, hi, hfinal.trans (Part.final_of_some hi copy)⟩
  cases hn : part.number with
  | none =>
      have hentry : entry py final part.original = part.original := by
        unfold entry
        cases hf : byId py final (mappingKey py part.original) with
        | none => rfl
        | some f =>
            obtain ⟨hmem, hkey⟩ := byId_some hf
            obtain ⟨i, hi, -⟩ := hown f hmem hkey
            rw [hn] at hi
            cases hi
      exact ⟨fun _ => hentry, fun hne => absurd hn hne,
        fun i hi => absurd (hi.symm.trans hn) (Option.some_ne_none i)⟩
  | some i =>
      obtain ⟨copy, hcopy, hran⟩ := h.ran part hpart i hn
      have hid := hkeys.named part hpart (by rw [hn]; exact Option.some_ne_none i)
      have hentry : entry py final part.original = mappings i := by
        obtain ⟨hmem, hkey⟩ := h.mem_of_id hpart hcopy hid
        obtain ⟨f, hf⟩ := byId_of_mem hmem hkey
        obtain ⟨hfmem, hfkey⟩ := byId_some hf
        obtain ⟨j, hj, rfl⟩ := hown f hfmem hfkey
        rw [hn, Option.some.injEq] at hj
        unfold entry
        rw [hf, hj, Option.getD_some]
      rw [hentry]
      refine ⟨fun hnone => absurd (hn.symm.trans hnone) (Option.some_ne_none i), ?_, ?_⟩
      · intro _ copy' hcopy' key hkey
        rw [hcopy, Option.some.injEq] at hcopy'
        subst hcopy'
        apply hran.kept
        revert key
        decide
      · intro j hj
        rw [hn, Option.some.injEq] at hj
        exact hj ▸ hran.carries

/-- The results of a run tell its tables apart, and the mappings had other results before. -/
structure Telling (ps : List Part) (tableResults : List Dict) : Prop where
  inj : ∀ (i j : ℕ) result, tableResults[i]? = some result → tableResults[j]? = some result → i = j
  original : ∀ part ∈ ps, ∀ result ∈ tableResults, part.original.get "last_result" ≠ .obj result
  copy : ∀ part ∈ ps, ∀ copy, part.copy = some copy → ∀ result ∈ tableResults,
    copy.get "last_result" ≠ .obj result

/-- A faithful entry of a mapping that is run is what its own run has left. -/
theorem Patched.entry_of_faithful (h : Patched py selected ps final mappings tableResults)
    (ht : Telling ps tableResults) (hpart : part ∈ ps) {i : ℕ} (hi : part.number = some i)
    (hf : Faithful tableResults part (entry py final part.original)) :
    byId py final (mappingKey py part.original) = some (mappings i) ∧
      (part.original.get "id").truthy = true := by
  obtain ⟨result, hresult, hentry⟩ := hf.carries i hi
  have hmem := List.mem_of_getElem? hresult
  unfold entry at hentry
  cases hfound : byId py final (mappingKey py part.original) with
  | none =>
      rw [hfound] at hentry
      exact absurd hentry (ht.original part hpart result hmem)
  | some f =>
      rw [hfound, Option.getD_some] at hentry
      obtain ⟨hfmem, hfkey⟩ := byId_some hfound
      obtain ⟨other, hother, copy, hcopy, hfinal, hid, -⟩ := h.of_key hpart hfmem hfkey
      cases hn : other.number with
      | none =>
          rw [hfinal, Part.final_of_none hn] at hentry
          exact absurd hentry (ht.copy other hother copy hcopy result hmem)
      | some j =>
          have hfj : f = mappings j := hfinal.trans (Part.final_of_some hn copy)
          obtain ⟨_, -, hran⟩ := h.ran other hother j hn
          obtain ⟨result', hresult', hcarries⟩ := hran.carries
          rw [hfj, hcarries, Json.obj.injEq] at hentry
          have hij : i = j := ht.inj i j result hresult (hentry ▸ hresult')
          have heq := h.number_inj part hpart other hother i hi (hij ▸ hn)
          exact ⟨by rw [hfj, hij], heq ▸ hid⟩

theorem Patched.keysApart (h : Patched py selected ps final mappings tableResults)
    (ht : Telling ps tableResults)
    (hf : ∀ part ∈ ps, Faithful tableResults part (entry py final part.original)) :
    KeysApart py ps := by
  -- an entry that is the original is no mapping a run has left
  have hold : ∀ part ∈ ps, part.number = none → ∀ j, ∀ other ∈ ps, other.number = some j →
      byId py final (mappingKey py part.original) ≠ some (mappings j) := by
    intro part hpart hn j other hother hj hfound
    have hentry := (hf part hpart).unchanged hn
    unfold entry at hentry
    rw [hfound, Option.getD_some] at hentry
    obtain ⟨_, -, hran⟩ := h.ran other hother j hj
    obtain ⟨result, hresult, hcarries⟩ := hran.carries
    rw [hentry] at hcarries
    exact ht.original part hpart result (List.mem_of_getElem? hresult) hcarries
  refine ⟨?_, ?_, ?_⟩
  · intro part hpart hnumber
    obtain ⟨i, hi⟩ := Option.ne_none_iff_exists'.mp hnumber
    exact (h.entry_of_faithful ht hpart hi (hf part hpart)).2
  · intro part hpart hne hid hn
    obtain ⟨copy, hcopy⟩ := Option.ne_none_iff_exists'.mp hne
    obtain ⟨hmem, hkey⟩ := h.mem_of_id hpart hcopy hid
    obtain ⟨f, hfound⟩ := byId_of_mem hmem hkey
    obtain ⟨hfmem, hfkey⟩ := byId_some hfound
    obtain ⟨other, hother, copy', hcopy', hfinal, -, -⟩ := h.of_key hpart hfmem hfkey
    cases hj : other.number with
    | some j =>
        apply hold part hpart hn j other hother hj
        rw [hfound, hfinal, Part.final_of_some hj]
    | none =>
        -- the copy that stands there is not run, the mapping itself is enabled and selected
        have hentry := (hf part hpart).unchanged hn
        unfold entry at hentry
        rw [hfound, Option.getD_some, hfinal, Part.final_of_none hj] at hentry
        have hrun := ((h.copied part hpart copy hcopy).2 hn).1
        have hnot := ((h.copied other hother copy' hcopy').2 hj).2
        rw [hentry, hrun] at hnot
        cases hnot
  · intro part hpart other hother hnumber hsame
    obtain ⟨j, hj⟩ := Option.ne_none_iff_exists'.mp hnumber
    have hfound := (h.entry_of_faithful ht hother hj (hf other hother)).1
    rw [hsame] at hfound
    cases hi : part.number with
    | none => exact absurd hfound (hold part hpart hi j other hother hj)
    | some i =>
        have hfound' := (h.entry_of_faithful ht hpart hi (hf part hpart)).1
        rw [hfound, Option.some.injEq] at hfound'
        obtain ⟨_, -, hran⟩ := h.ran part hpart i hi
        obtain ⟨_, -, hran'⟩ := h.ran other hother j hj
        obtain ⟨result, hresult, hcarries⟩ := hran.carries
        obtain ⟨result', hresult', hcarries'⟩ := hran'.carries
        rw [hfound', hcarries, Json.obj.injEq] at hcarries'
        have hij : i = j := ht.inj i j result hresult (hcarries' ▸ hresult')
        exact h.number_inj part hpart other hother i hi (hij ▸ hj)

end

end DataSync
