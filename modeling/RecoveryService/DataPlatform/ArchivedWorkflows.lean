import RecoveryService.DataPlatform.VersionStore

/-! # Archived workflows stay dormant

In a consistent store every workflow has at most one online version, and an archived workflow has
no online version, no scheduled version and no enabled change trigger.  Archiving a workflow
establishes this; the operations that put a version online, schedule one or write the status of a
workflow do not look at it.  `Permitted` is the condition they would have to check: in a
consistent store a request keeps the store consistent exactly when it is permitted. -/

set_option linter.unusedSectionVars false

namespace RecoveryService.DataPlatform

open Checks Runs ChangeTrigger

variable {V : Type}

section consistent

variable (s : Store V)

def Store.Archived (workflowId : ℕ) : Prop :=
  ∃ workflow ∈ s.workflows, workflow.id = workflowId ∧ workflow.status = .archived

/-- The version with this id is an online version of the workflow. -/
def Store.OnlineIn (workflowId id : ℕ) : Prop :=
  ∃ version ∈ s.versions, version.id = id ∧ version.workflowId = workflowId ∧ version.status = .online

/-- The workflow has a version with an enabled schedule. -/
def Store.Scheduled (workflowId : ℕ) : Prop :=
  ∃ version ∈ s.versions, version.workflowId = workflowId ∧ version.scheduleEnabled = true

/-- The workflow has an enabled change trigger. -/
def Store.Watching (workflowId : ℕ) : Prop :=
  ∃ row ∈ s.triggers, row.workflowId = workflowId ∧ row.enabled = true

def Store.Dormant (workflowId : ℕ) : Prop :=
  (∀ id, ¬ s.OnlineIn workflowId id) ∧ ¬ s.Scheduled workflowId ∧ ¬ s.Watching workflowId

structure Store.Consistent : Prop where
  single : ∀ workflowId id₁ id₂, s.OnlineIn workflowId id₁ → s.OnlineIn workflowId id₂ → id₁ = id₂
  dormant : ∀ workflowId, s.Archived workflowId → s.Dormant workflowId

/-- The condition under which a request keeps the store consistent. -/
def Permitted : Request → Prop
  | .createVersion workflowId body _ => body.scheduleEnabled = true → ¬ s.Archived workflowId
  | .updateVersion _ _ id updates _ => updates.scheduleEnabled = some true →
      ∀ version ∈ s.findVersion id, ¬ s.Archived version.workflowId
  | .publishVersion _ id => ∀ version ∈ s.findVersion id, ¬ s.Archived version.workflowId
  | .updateWorkflow id updates => updates.status = some .archived → s.Dormant id
  | .publishChangeTriggerTask _ id _ => ∀ task ∈ s.findTask id,
      ∀ workflow ∈ task.systemWorkflowId.bind s.findWorkflow, workflow.status ≠ .archived ∧
        ∀ version ∈ s.versions, version.workflowId = workflow.id → version.status = .online →
          task.publishedVersionId = some version.id
  | _ => True

instance (workflowId : ℕ) : Decidable (s.Archived workflowId) :=
  inferInstanceAs (Decidable (∃ workflow ∈ s.workflows, _ ∧ _))

instance (workflowId : ℕ) : Decidable (s.Dormant workflowId) :=
  decidable_of_iff ((∀ version ∈ s.versions, version.workflowId = workflowId →
      version.status ≠ .online ∧ version.scheduleEnabled = false) ∧
    ∀ row ∈ s.triggers, row.workflowId = workflowId → row.enabled = false) (by
      simp only [Store.Dormant, Store.OnlineIn, Store.Scheduled, Store.Watching]
      grind)

instance : (request : Request) → Decidable (Permitted s request)
  | .createVersion _ _ _ => inferInstanceAs (Decidable (_ → _))
  | .updateVersion _ _ _ _ _ => inferInstanceAs (Decidable (_ → ∀ version ∈ s.findVersion _, _))
  | .submitVersion _ _ => .isTrue trivial
  | .publishVersion _ _ => inferInstanceAs (Decidable (∀ version ∈ s.findVersion _, _))
  | .offlineVersion _ _ => .isTrue trivial
  | .updateWorkflow _ _ => inferInstanceAs (Decidable (_ → _))
  | .archiveWorkflow _ _ => .isTrue trivial
  | .publishChangeTriggerTask _ _ _ =>
      inferInstanceAs (Decidable (∀ task ∈ s.findTask _, ∀ workflow ∈ _, _ ∧ ∀ version ∈ s.versions, _))

/-- Keys are unique and taken from the ids used so far; a trigger belongs to the workflow of its
version. -/
structure Store.Keys : Prop where
  workflows : (s.workflows.map Workflow.id).Nodup
  versions : (s.versions.map WorkflowVersion.id).Nodup
  workflowsFresh : ∀ workflow ∈ s.workflows, workflow.id < s.nextId
  versionsFresh : ∀ version ∈ s.versions, version.id < s.nextId ∧ version.workflowId < s.nextId
  triggers : ∀ row ∈ s.triggers, ∃ version ∈ s.versions,
    version.id = row.versionId ∧ version.workflowId = row.workflowId

/-- Nothing has been stored but workflows and trigger tasks. -/
structure Store.Initial : Prop where
  workflows : (s.workflows.map Workflow.id).Nodup
  workflowsFresh : ∀ workflow ∈ s.workflows, workflow.id < s.nextId
  versions : s.versions = []
  triggers : s.triggers = []

end consistent

variable {s s' : Store V}

theorem Store.Initial.keys (h : s.Initial) : s.Keys := by
  refine ⟨h.workflows, ?_, h.workflowsFresh, ?_, ?_⟩
  · simp [h.versions]
  · simp [h.versions]
  · simp [h.triggers]

theorem Store.Initial.consistent (h : s.Initial) : s.Consistent := by
  constructor
  · rintro workflowId id₁ id₂ ⟨version, hv, _⟩
    simp [h.versions] at hv
  · intro workflowId _
    simp [Store.Dormant, Store.OnlineIn, Store.Scheduled, Store.Watching, h.versions, h.triggers]

/-! ### Rows and keys -/

variable {version : WorkflowVersion}

theorem Store.findVersion_eq_some {id : ℕ} (h : s.findVersion id = some version) :
    version ∈ s.versions ∧ version.id = id :=
  ⟨List.mem_of_find?_eq_some h, by simpa using List.find?_some h⟩

theorem Store.findWorkflow_eq_some {id : ℕ} {workflow : Workflow}
    (h : s.findWorkflow id = some workflow) : workflow ∈ s.workflows ∧ workflow.id = id :=
  ⟨List.mem_of_find?_eq_some h, by simpa using List.find?_some h⟩

theorem Store.Keys.version_eq (h : s.Keys) {v₁ v₂ : WorkflowVersion} (h₁ : v₁ ∈ s.versions)
    (h₂ : v₂ ∈ s.versions) (hid : v₁.id = v₂.id) : v₁ = v₂ :=
  List.inj_on_of_nodup_map h.versions h₁ h₂ hid

theorem Store.Keys.workflow_eq (h : s.Keys) {w₁ w₂ : Workflow} (h₁ : w₁ ∈ s.workflows)
    (h₂ : w₂ ∈ s.workflows) (hid : w₁.id = w₂.id) : w₁ = w₂ :=
  List.inj_on_of_nodup_map h.workflows h₁ h₂ hid

/-- Rows that are rewritten keep their keys. -/
theorem map_key {α : Type} {key : α → ℕ} {rows : List α} {f : α → α}
    (h : ∀ row ∈ rows, key (f row) = key row) : (rows.map f).map key = rows.map key := by
  rw [List.map_map]
  exact List.map_congr_left h

variable {rows : List (TriggerRow V)}

theorem mem_retireChangeTriggers {replaced : ℕ → Bool} {row : TriggerRow V}
    (h : row ∈ retireChangeTriggers replaced rows) :
    ∃ r ∈ rows, row.versionId = r.versionId ∧ row.workflowId = r.workflowId ∧
      (row.enabled = true → r.enabled = true ∧ replaced r.versionId = false) := by
  obtain ⟨r, hr, rfl⟩ := List.mem_map.mp h
  refine ⟨r, hr, ?_⟩
  split_ifs with hp
  · exact ⟨rfl, rfl, fun he => by cases he⟩
  · exact ⟨rfl, rfl, fun he => ⟨he, by simpa using hp⟩⟩

/-- Synchronisation only writes rows of its version. -/
theorem mem_synchronizeChangeTriggers
    {normalizeTriggerConfig : List NodeSpec → Json → Except String (TriggerConfig V)} {now nextId : ℕ}
    {rows' : List (TriggerRow V)}
    (h : synchronizeChangeTriggers normalizeTriggerConfig now version nextId rows = .ok rows')
    {row : TriggerRow V} (hr : row ∈ rows') : row ∈ rows ∨ (row.versionId = version.id ∧
      ((∃ r ∈ rows, r.versionId = row.versionId ∧ r.workflowId = row.workflowId) ∨
        row.workflowId = version.workflowId)) := by
  unfold synchronizeChangeTriggers at h
  obtain ⟨configured, _, h⟩ := bind_eq_ok.mp h
  obtain ⟨_, _, h⟩ := bind_eq_ok.mp h
  cases h
  cases List.mem_append.mp hr with
  | inl hkept =>
      obtain ⟨r, hr', rfl⟩ := List.mem_map.mp hkept
      split_ifs with hv
      · refine Or.inr ⟨(synchronizeRow_versionId _ _ _).trans hv, Or.inl ⟨r, hr', ?_, ?_⟩⟩
        · rw [synchronizeRow_versionId]
        · rw [synchronizeRow_workflowId]
      · exact Or.inl hr'
  | inr hnew =>
      obtain ⟨i, hi, rfl⟩ := List.mem_mapIdx.mp hnew
      refine Or.inr ⟨?_, Or.inr ?_⟩
      · rw [newTriggerRow_versionId]
      · rw [newTriggerRow_workflowId]

/-! ### What the parts of a request keep -/

/-- A version is added. -/
theorem Store.Keys.addVersion (h : s.Keys) (hid : version.id = s.nextId)
    (hworkflow : version.workflowId < s.nextId) (hworkflows : s'.workflows = s.workflows)
    (hversions : s'.versions = s.versions ++ [version]) (hnext : s.nextId < s'.nextId)
    (htriggers : ∀ row ∈ s'.triggers,
      (∃ r ∈ s.triggers, r.versionId = row.versionId ∧ r.workflowId = row.workflowId) ∨
        (row.versionId = version.id ∧ row.workflowId = version.workflowId)) : s'.Keys := by
  refine ⟨?_, ?_, ?_, ?_, ?_⟩
  · rw [hworkflows]
    exact h.workflows
  · rw [hversions, List.map_append, List.map_singleton]
    refine h.versions.append (List.nodup_singleton _) ?_
    rw [List.disjoint_singleton]
    intro hm
    obtain ⟨v, hv, he⟩ := List.mem_map.mp hm
    have := (h.versionsFresh v hv).1
    omega
  · rw [hworkflows]
    exact fun workflow hw => (h.workflowsFresh workflow hw).trans hnext
  · intro v hv
    rw [hversions, List.mem_append, List.mem_singleton] at hv
    cases hv with
    | inl hv =>
        have := h.versionsFresh v hv
        omega
    | inr hv =>
        subst hv
        omega
  · intro row hr
    rw [hversions]
    cases htriggers row hr with
    | inl hold =>
        obtain ⟨r, hr', hversion, hflow⟩ := hold
        obtain ⟨v, hv, hvid, hvflow⟩ := h.triggers r hr'
        exact ⟨v, List.mem_append_left _ hv, hvid.trans hversion, hvflow.trans hflow⟩
    | inr hnew => exact ⟨version, by simp, hnew.1.symm, hnew.2.symm⟩

/-- The versions are rewritten, keeping their keys. -/
theorem Store.Keys.rewrite (h : s.Keys) {f : WorkflowVersion → WorkflowVersion}
    (hf : ∀ v ∈ s.versions, (f v).id = v.id ∧ (f v).workflowId = v.workflowId)
    (hworkflows : s'.workflows.map Workflow.id = s.workflows.map Workflow.id)
    (hversions : s'.versions = s.versions.map f) (hnext : s.nextId ≤ s'.nextId)
    (htriggers : ∀ row ∈ s'.triggers, ∃ v ∈ s.versions,
      v.id = row.versionId ∧ v.workflowId = row.workflowId) : s'.Keys := by
  refine ⟨?_, ?_, ?_, ?_, ?_⟩
  · rw [hworkflows]
    exact h.workflows
  · rw [hversions, map_key fun v hv => (hf v hv).1]
    exact h.versions
  · intro workflow hw
    have hm : workflow.id ∈ s'.workflows.map Workflow.id := List.mem_map_of_mem hw
    rw [hworkflows] at hm
    obtain ⟨w, hw', he⟩ := List.mem_map.mp hm
    have := h.workflowsFresh w hw'
    omega
  · intro v hv
    rw [hversions] at hv
    obtain ⟨u, hu, rfl⟩ := List.mem_map.mp hv
    rw [(hf u hu).1, (hf u hu).2]
    have := h.versionsFresh u hu
    omega
  · intro row hr
    obtain ⟨v, hv, hvid, hvflow⟩ := htriggers row hr
    refine ⟨f v, ?_, (hf v hv).1.trans hvid, (hf v hv).2.trans hvflow⟩
    rw [hversions]
    exact List.mem_map_of_mem hv

/-- Nothing becomes active. -/
theorem Store.Consistent.of_quieter (h : s.Consistent) (harchived : ∀ w, s'.Archived w → s.Archived w)
    (honline : ∀ w id, s'.OnlineIn w id → s.OnlineIn w id) (hscheduled : ∀ w, s'.Scheduled w → s.Scheduled w)
    (hwatching : ∀ w, s'.Watching w → s.Watching w) : s'.Consistent := by
  constructor
  · exact fun w id₁ id₂ h₁ h₂ => h.single w id₁ id₂ (honline w id₁ h₁) (honline w id₂ h₂)
  · intro w hw
    obtain ⟨ho, hs, ht⟩ := h.dormant w (harchived w hw)
    exact ⟨fun id hid => ho id (honline w id hid), fun hw' => hs (hscheduled w hw'),
      fun hw' => ht (hwatching w hw')⟩

/-- Only a workflow that is not archived becomes active. -/
theorem Store.Consistent.of_except (h : s.Consistent) (w₀ : ℕ) (hactive : ¬ s'.Archived w₀)
    (hsingle : ∀ id₁ id₂, s'.OnlineIn w₀ id₁ → s'.OnlineIn w₀ id₂ → id₁ = id₂)
    (harchived : ∀ w, s'.Archived w → s.Archived w)
    (honline : ∀ w id, w ≠ w₀ → s'.OnlineIn w id → s.OnlineIn w id)
    (hscheduled : ∀ w, w ≠ w₀ → s'.Scheduled w → s.Scheduled w)
    (hwatching : ∀ w, w ≠ w₀ → s'.Watching w → s.Watching w) : s'.Consistent := by
  constructor
  · intro w id₁ id₂ h₁ h₂
    by_cases hw : w = w₀
    · subst hw
      exact hsingle id₁ id₂ h₁ h₂
    · exact h.single w id₁ id₂ (honline w id₁ hw h₁) (honline w id₂ hw h₂)
  · intro w hw
    have hne : w ≠ w₀ := fun he => hactive (he ▸ hw)
    obtain ⟨ho, hs, ht⟩ := h.dormant w (harchived w hw)
    exact ⟨fun id hid => ho id (honline w id hne hid), fun hw' => hs (hscheduled w hne hw'),
      fun hw' => ht (hwatching w hne hw')⟩

/-- A version that is not online is added. -/
theorem Store.Consistent.addVersion_iff (h : s.Consistent) (hstatus : version.status ≠ .online)
    (hworkflows : s'.workflows = s.workflows) (hversions : s'.versions = s.versions ++ [version])
    (htriggers : s'.triggers = s.triggers) :
    s'.Consistent ↔ (version.scheduleEnabled = true → ¬ s.Archived version.workflowId) := by
  have harchived : ∀ w, s'.Archived w ↔ s.Archived w := by
    intro w
    unfold Store.Archived
    rw [hworkflows]
  have honline : ∀ w id, s'.OnlineIn w id → s.OnlineIn w id := by
    rintro w id ⟨v, hv, hid, hw, ho⟩
    rw [hversions, List.mem_append, List.mem_singleton] at hv
    cases hv with
    | inl hv => exact ⟨v, hv, hid, hw, ho⟩
    | inr hv => exact absurd (hv ▸ ho) hstatus
  have hscheduled : ∀ w, s'.Scheduled w →
      s.Scheduled w ∨ (w = version.workflowId ∧ version.scheduleEnabled = true) := by
    rintro w ⟨v, hv, hw, hs⟩
    rw [hversions, List.mem_append, List.mem_singleton] at hv
    cases hv with
    | inl hv => exact Or.inl ⟨v, hv, hw, hs⟩
    | inr hv => exact Or.inr ⟨hv ▸ hw.symm, hv ▸ hs⟩
  have hwatching : ∀ w, s'.Watching w → s.Watching w := by
    intro w hw
    unfold Store.Watching at hw ⊢
    rwa [htriggers] at hw
  constructor
  · intro h' hs ha
    apply (h'.dormant _ ((harchived _).mpr ha)).2.1
    exact ⟨version, by rw [hversions]; simp, rfl, hs⟩
  · intro hpermitted
    by_cases hs : version.scheduleEnabled = true
    · refine h.of_except version.workflowId ?_ ?_ (fun w => (harchived w).mp)
        (fun w id _ => honline w id) ?_ (fun w _ => hwatching w)
      · exact fun ha => hpermitted hs ((harchived _).mp ha)
      · exact fun id₁ id₂ h₁ h₂ => h.single _ id₁ id₂ (honline _ _ h₁) (honline _ _ h₂)
      · exact fun w hne hw => (hscheduled w hw).resolve_right (fun he => hne he.1)
    · exact h.of_quieter (fun w => (harchived w).mp) honline
        (fun w hw => (hscheduled w hw).resolve_right (fun he => hs he.2)) hwatching

/-! ### What a request does -/

section requests

variable {complete : NodeSpec → Bool} {contentHash : ReleaseSnapshot → String}
  {nextScheduleTime : ScheduleRule → ℕ → Except String ℕ}
  {normalizeTriggerConfig : List NodeSpec → Json → Except String (TriggerConfig V)}

variable {freeze : Freeze}
variable {workflowId : ℕ}

theorem Store.createVersion_eq_ok {body : VersionBody}
    (h : s.createVersion contentHash workflowId body freeze = .ok s') :
    ∃ workflow version, s.findWorkflow workflowId = some workflow ∧ version.id = s.nextId ∧
      version.workflowId = workflowId ∧ version.status ≠ .online ∧
        version.scheduleEnabled = body.scheduleEnabled ∧
          s' = { s with versions := s.versions ++ [version], nextId := s.nextId + 1 } := by
  unfold Store.createVersion at h
  cases hw : s.findWorkflow workflowId with
  | none =>
      rw [hw] at h
      cases h
  | some workflow =>
      rw [hw] at h
      obtain ⟨items, _, h⟩ := bind_eq_ok.mp h
      obtain ⟨nodes, _, h⟩ := bind_eq_ok.mp h
      obtain ⟨release, _, h⟩ := bind_eq_ok.mp h
      cases h
      refine ⟨workflow, _, rfl, ?_, ?_, ?_, ?_, rfl⟩
      · rfl
      · rfl
      · dsimp only
        split_ifs <;> simp
      · rfl

variable {now : ℕ}

theorem Store.updateVersion_eq_ok {id : ℕ} {actor : Actor} {updates : VersionUpdates}
    (h : s.updateVersion contentHash nextScheduleTime now actor id updates freeze = .ok s') :
    ∃ version version', s.findVersion id = some version ∧ version'.id = version.id ∧
      version'.workflowId = version.workflowId ∧ version'.status = version.status ∧
        version'.scheduleEnabled = updates.scheduleEnabled.getD version.scheduleEnabled ∧
          s' = s.setVersion id version' := by
  unfold Store.updateVersion at h
  cases hv : s.findVersion id with
  | none =>
      rw [hv] at h
      cases h
  | some version =>
      rw [hv] at h
      obtain ⟨_, _, h⟩ := bind_eq_ok.mp h
      obtain ⟨_, _, h⟩ := bind_eq_ok.mp h
      obtain ⟨_, _, h⟩ := bind_eq_ok.mp h
      obtain ⟨nextRunAt, _, h⟩ := bind_eq_ok.mp h
      obtain ⟨nodes, _, h⟩ := bind_eq_ok.mp h
      obtain ⟨release, _, h⟩ := bind_eq_ok.mp h
      cases h
      refine ⟨version, _, rfl, ?_, ?_, ?_, ?_, rfl⟩ <;> rfl

theorem Store.submitVersion_eq_ok {id : ℕ} (h : s.submitVersion complete contentHash id freeze = .ok s') :
    s' = s ∨ ∃ source version, source ∈ s.versions ∧ version.id = s.nextId ∧
      version.workflowId = source.workflowId ∧ version.status ≠ .online ∧
        version.scheduleEnabled = source.scheduleEnabled ∧
          s' = { s with versions := s.versions ++ [version], nextId := s.nextId + 1 } := by
  unfold Store.submitVersion at h
  cases hv : s.findVersion id with
  | none =>
      rw [hv] at h
      cases h
  | some source =>
      rw [hv] at h
      obtain ⟨nodes, _, h⟩ := bind_eq_ok.mp h
      obtain ⟨_, _, h⟩ := bind_eq_ok.mp h
      obtain ⟨release, _, h⟩ := bind_eq_ok.mp h
      dsimp only at h
      split_ifs at h
      · cases h
        exact Or.inl rfl
      · cases h
        refine Or.inr ⟨source, _, (Store.findVersion_eq_some hv).1, ?_, ?_, ?_, ?_, rfl⟩
        · rfl
        · rfl
        · simp
        · rfl

theorem Store.publishVersion_eq_ok {id : ℕ}
    (h : s.publishVersion complete nextScheduleTime normalizeTriggerConfig now id = .ok s') :
    ∃ version version' triggers, s.findVersion id = some version ∧ version'.id = version.id ∧
      version'.workflowId = version.workflowId ∧ version'.status = .online ∧
        version'.scheduleEnabled = version.scheduleEnabled ∧
      synchronizeChangeTriggers normalizeTriggerConfig now version' s.nextId
        (retireChangeTriggers (fun versionId => s.versions.any (fun v => v.id = versionId ∧
          v.workflowId = version.workflowId ∧ v.status = .online ∧ v.id ≠ version.id))
            s.triggers) = .ok triggers ∧
      s' = { s with
        versions := s.versions.map (fun v =>
          if v.id = id then version'
          else if v.workflowId = version.workflowId ∧ v.status = .online ∧ v.id ≠ version.id then
            v.takeOffline now
          else v)
        triggers := triggers
        nextId := s.nextId + triggers.length } := by
  unfold Store.publishVersion at h
  cases hv : s.findVersion id with
  | none =>
      rw [hv] at h
      cases h
  | some version =>
      rw [hv] at h
      obtain ⟨_, _, h⟩ := bind_eq_ok.mp h
      obtain ⟨_, _, h⟩ := bind_eq_ok.mp h
      obtain ⟨_, _, h⟩ := bind_eq_ok.mp h
      obtain ⟨nextRunAt, _, h⟩ := bind_eq_ok.mp h
      obtain ⟨triggers, ht, h⟩ := bind_eq_ok.mp h
      cases h
      dsimp only at ht ⊢
      refine ⟨version, _, triggers, rfl, ?_, ?_, ?_, ?_, ht, rfl⟩ <;> rfl

variable {updates : WorkflowUpdates}

theorem Store.updateWorkflow_eq_ok {id : ℕ} (h : s.updateWorkflow id updates = .ok s') :
    ∃ workflow f, s.findWorkflow id = some workflow ∧ (∀ w : Workflow, (f w).id = w.id ∧
      (f w).status = if w.id = id then updates.status.getD workflow.status else w.status) ∧
        s' = { s with workflows := s.workflows.map f } := by
  unfold Store.updateWorkflow at h
  cases hw : s.findWorkflow id with
  | none =>
      rw [hw] at h
      cases h
  | some workflow =>
      rw [hw] at h
      obtain ⟨_, _, h⟩ := bind_eq_ok.mp h
      obtain ⟨_, _, h⟩ := bind_eq_ok.mp h
      cases h
      refine ⟨workflow, _, rfl, fun w => ?_, rfl⟩
      split_ifs <;> exact ⟨rfl, rfl⟩

/-! ### Requests that write versions -/

theorem Store.Archived.congr (h : s'.workflows = s.workflows) (w : ℕ) : s'.Archived w ↔ s.Archived w := by
  unfold Store.Archived
  rw [h]

theorem createVersion_iff (hk : s.Keys) (hc : s.Consistent) {body : VersionBody}
    (h : s.createVersion contentHash workflowId body freeze = .ok s') :
    s'.Keys ∧ (s'.Consistent ↔ Permitted s (.createVersion workflowId body freeze)) := by
  obtain ⟨workflow, version, hw, hid, hflow, hstatus, hscheduled, hs'⟩ := Store.createVersion_eq_ok h
  obtain ⟨hw, hwid⟩ := Store.findWorkflow_eq_some hw
  have hold : version.workflowId < s.nextId := by
    rw [hflow, ← hwid]
    exact hk.workflowsFresh workflow hw
  constructor
  · exact hk.addVersion hid hold (by rw [hs']) (by rw [hs']) (by rw [hs']; exact Nat.lt_succ_self _)
      (fun row hr => Or.inl ⟨row, by rwa [hs'] at hr, rfl, rfl⟩)
  · have hiff : s'.Consistent ↔ _ :=
      hc.addVersion_iff hstatus (by rw [hs']) (by rw [hs']) (by rw [hs'])
    rw [hiff, hscheduled, hflow]
    rfl

theorem submitVersion_ok (hk : s.Keys) (hc : s.Consistent) {id : ℕ}
    (h : s.submitVersion complete contentHash id freeze = .ok s') : s'.Keys ∧ s'.Consistent := by
  cases Store.submitVersion_eq_ok h with
  | inl hsame =>
      subst hsame
      exact ⟨hk, hc⟩
  | inr hadded =>
      obtain ⟨source, version, hsource, hid, hflow, hstatus, hscheduled, hs'⟩ := hadded
      have hold : version.workflowId < s.nextId := by
        rw [hflow]
        exact (hk.versionsFresh source hsource).2
      constructor
      · exact hk.addVersion hid hold (by rw [hs']) (by rw [hs'])
          (by rw [hs']; exact Nat.lt_succ_self _)
          (fun row hr => Or.inl ⟨row, by rwa [hs'] at hr, rfl, rfl⟩)
      · have hiff : s'.Consistent ↔ _ :=
          hc.addVersion_iff hstatus (by rw [hs']) (by rw [hs']) (by rw [hs'])
        rw [hiff, hscheduled, hflow]
        intro hs ha
        -- the source of an archived workflow is not scheduled
        exact (hc.dormant _ ha).2.1 ⟨source, hsource, rfl, hs⟩

/-- The versions with the found one replaced. -/
theorem mem_setVersion {id : ℕ} {version' v : WorkflowVersion} (hm : v ∈ (s.setVersion id version').versions) :
    v = version' ∨ (v ∈ s.versions ∧ v.id ≠ id) := by
  obtain ⟨u, hu, rfl⟩ := List.mem_map.mp hm
  split_ifs with hid
  · exact Or.inl rfl
  · exact Or.inr ⟨hu, hid⟩

variable {version : WorkflowVersion}

theorem Store.setVersion_mem {id : ℕ} (hv : s.findVersion id = some version) (version' : WorkflowVersion) :
    version' ∈ (s.setVersion id version').versions := by
  obtain ⟨hm, hid⟩ := Store.findVersion_eq_some hv
  exact List.mem_map.mpr ⟨version, hm, if_pos hid⟩

theorem Store.Keys.setVersion (hk : s.Keys) {id : ℕ} (version' : WorkflowVersion)
    (hv : s.findVersion id = some version) (hid : version'.id = version.id)
    (hflow : version'.workflowId = version.workflowId) {triggers : List (TriggerRow V)}
    (htriggers : ∀ row ∈ triggers, ∃ r ∈ s.triggers,
      row.versionId = r.versionId ∧ row.workflowId = r.workflowId) :
    Store.Keys { s.setVersion id version' with triggers := triggers } := by
  obtain ⟨hm, hvid⟩ := Store.findVersion_eq_some hv
  refine hk.rewrite (f := fun v => if v.id = id then version' else v) ?_ rfl rfl le_rfl ?_
  · intro v hvm
    split_ifs with he
    · rw [hk.version_eq hvm hm (he.trans hvid.symm)]
      exact ⟨hid, hflow⟩
    · exact ⟨rfl, rfl⟩
  · intro row hr
    obtain ⟨r, hr', hrv, hrw⟩ := htriggers row hr
    rw [hrv, hrw]
    exact hk.triggers r hr'

theorem updateVersion_iff (hk : s.Keys) (hc : s.Consistent) {id : ℕ} {actor : Actor} {updates : VersionUpdates}
    (h : s.updateVersion contentHash nextScheduleTime now actor id updates freeze = .ok s') :
    s'.Keys ∧ (s'.Consistent ↔ Permitted s (.updateVersion now actor id updates freeze)) := by
  obtain ⟨version, version', hv, hid, hflow, hstatus, hscheduled, rfl⟩ := Store.updateVersion_eq_ok h
  obtain ⟨hm, hvid⟩ := Store.findVersion_eq_some hv
  have hmem := Store.setVersion_mem hv version'
  have honline : ∀ w i, (s.setVersion id version').OnlineIn w i → s.OnlineIn w i := by
    rintro w i ⟨v, hvm, hi, hw, ho⟩
    cases mem_setVersion hvm with
    | inl he =>
        subst he
        exact ⟨version, hm, hid.symm.trans hi, hflow.symm.trans hw, hstatus.symm.trans ho⟩
    | inr hold => exact ⟨v, hold.1, hi, hw, ho⟩
  have hsched : ∀ w, (s.setVersion id version').Scheduled w →
      s.Scheduled w ∨ (w = version.workflowId ∧ updates.scheduleEnabled = some true) := by
    rintro w ⟨v, hvm, hw, hs⟩
    cases mem_setVersion hvm with
    | inl he =>
        subst he
        rw [hscheduled] at hs
        cases hu : updates.scheduleEnabled with
        | none =>
            rw [hu] at hs
            exact Or.inl ⟨version, hm, hflow.symm.trans hw, hs⟩
        | some enabled =>
            rw [hu] at hs
            exact Or.inr ⟨hw.symm.trans hflow, congrArg some hs⟩
    | inr hold => exact Or.inl ⟨v, hold.1, hw, hs⟩
  refine ⟨hk.setVersion version' hv hid hflow (fun row hr => ⟨row, hr, rfl, rfl⟩), ?_⟩
  constructor
  · intro h' hu found hfound ha
    rw [Option.mem_def, hv, Option.some.injEq] at hfound
    subst hfound
    refine (h'.dormant version.workflowId ha).2.1 ⟨version', hmem, hflow, ?_⟩
    rw [hscheduled, hu]
    rfl
  · intro hpermitted
    by_cases hu : updates.scheduleEnabled = some true
    · refine hc.of_except version.workflowId (hpermitted hu version hv) ?_ (fun _ ha => ha)
        (fun w i _ => honline w i) ?_ (fun _ _ hw => hw)
      · exact fun i₁ i₂ h₁ h₂ => hc.single _ i₁ i₂ (honline _ _ h₁) (honline _ _ h₂)
      · exact fun w hne hw => (hsched w hw).resolve_right (fun he => hne he.1)
    · exact hc.of_quieter (fun _ ha => ha) honline
        (fun w hw => (hsched w hw).resolve_right (fun he => hu he.2)) (fun _ hw => hw)

theorem offlineVersion_ok (hk : s.Keys) (hc : s.Consistent) {id : ℕ} (h : s.offlineVersion now id = .ok s') :
    s'.Keys ∧ s'.Consistent := by
  unfold Store.offlineVersion at h
  cases hv : s.findVersion id with
  | none =>
      rw [hv] at h
      cases h
  | some version =>
      rw [hv] at h
      cases h
      obtain ⟨hm, hvid⟩ := Store.findVersion_eq_some hv
      constructor
      · refine hk.setVersion (version.takeOffline now) hv rfl rfl (fun row hr => ?_)
        obtain ⟨r, hr', hrv, hrw, _⟩ := mem_retireChangeTriggers hr
        exact ⟨r, hr', hrv, hrw⟩
      · refine hc.of_quieter (fun _ ha => ha) ?_ ?_ ?_
        · rintro w i ⟨v, hvm, hi, hw, ho⟩
          cases mem_setVersion hvm with
          | inl he =>
              subst he
              cases ho
          | inr hold => exact ⟨v, hold.1, hi, hw, ho⟩
        · rintro w ⟨v, hvm, hw, hs⟩
          cases mem_setVersion hvm with
          | inl he =>
              subst he
              cases hs
          | inr hold => exact ⟨v, hold.1, hw, hs⟩
        · rintro w ⟨row, hr, hw, he⟩
          dsimp only at hr
          obtain ⟨r, hr', _, hrw, hre⟩ := mem_retireChangeTriggers hr
          exact ⟨r, hr', hrw.symm.trans hw, (hre he).1⟩

/-- Publishing takes the other online versions of the workflow offline. -/
theorem publishVersion_iff (hk : s.Keys) (hc : s.Consistent) {id : ℕ}
    (h : s.publishVersion complete nextScheduleTime normalizeTriggerConfig now id = .ok s') :
    s'.Keys ∧ (s'.Consistent ↔ Permitted s (.publishVersion now id)) := by
  obtain ⟨version, version', triggers, hv, hid, hflow, hstatus, hscheduled, hsync, rfl⟩ :=
    Store.publishVersion_eq_ok h
  obtain ⟨hm, hvid⟩ := Store.findVersion_eq_some hv
  -- the rows of the triggers belong to versions as before
  have hrows : ∀ row ∈ triggers, (∃ r ∈ s.triggers, row.versionId = r.versionId ∧
      row.workflowId = r.workflowId ∧ (row.enabled = true → r.enabled = true)) ∨
        row.workflowId = version.workflowId ∧ ∃ v ∈ s.versions,
          v.id = row.versionId ∧ v.workflowId = row.workflowId := by
    intro row hr
    cases mem_synchronizeChangeTriggers hsync hr with
    | inl hold =>
        obtain ⟨r, hr', hrv, hrw, hre⟩ := mem_retireChangeTriggers hold
        exact Or.inl ⟨r, hr', hrv, hrw, fun he => (hre he).1⟩
    | inr hnew =>
        obtain ⟨hrow, hkeys⟩ := hnew
        rw [hid] at hrow
        right
        have hrw : row.workflowId = version.workflowId := by
          cases hkeys with
          | inl hold =>
              obtain ⟨r, hr', hrv, hrw⟩ := hold
              obtain ⟨r₀, hr₀, hr₀v, hr₀w, _⟩ := mem_retireChangeTriggers hr'
              obtain ⟨v, hvm, hvv, hvw⟩ := hk.triggers r₀ hr₀
              have heq : v = version := hk.version_eq hvm hm (by omega)
              rw [← hrw, hr₀w, ← hvw, heq]
          | inr hnew => exact hnew.trans hflow
        exact ⟨hrw, version, hm, hrow.symm, hrw.symm⟩
  constructor
  · refine hk.rewrite (f := fun v => if v.id = id then version' else
      if v.workflowId = version.workflowId ∧ v.status = .online ∧ v.id ≠ version.id then
        v.takeOffline now else v) ?_ rfl rfl (Nat.le_add_right _ _) ?_
    · intro v hvm
      split_ifs with he
      · rw [hk.version_eq hvm hm (he.trans hvid.symm)]
        exact ⟨hid, hflow⟩
      · exact ⟨rfl, rfl⟩
      · exact ⟨rfl, rfl⟩
    · intro row hr
      cases hrows row hr with
      | inl hold =>
          obtain ⟨r, hr', hrv, hrw, _⟩ := hold
          rw [hrv, hrw]
          exact hk.triggers r hr'
      | inr hnew => exact hnew.2
  · constructor
    · intro h' found hfound ha
      rw [Option.mem_def, hv, Option.some.injEq] at hfound
      subst hfound
      refine (h'.dormant version.workflowId ha).1 version'.id ⟨version', ?_, rfl, hflow, hstatus⟩
      exact List.mem_map.mpr ⟨version, hm, if_pos hvid⟩
    · intro hpermitted
      refine hc.of_except version.workflowId (hpermitted version hv) ?_ (fun _ ha => ha) ?_ ?_ ?_
      · -- the version published is the only one left online
        have hsame : ∀ v ∈ s.versions.map (fun v => if v.id = id then version' else
            if v.workflowId = version.workflowId ∧ v.status = .online ∧ v.id ≠ version.id then
              v.takeOffline now else v),
            v.workflowId = version.workflowId → v.status = .online → v.id = version.id := by
          intro v hvm hw ho
          obtain ⟨u, hu, rfl⟩ := List.mem_map.mp hvm
          split_ifs at hw ho ⊢ with he hreplaced
          · exact hid
          · cases ho
          · by_contra hne
            exact hreplaced ⟨hw, ho, hne⟩
        rintro i₁ i₂ ⟨v₁, hv₁, rfl, hw₁, ho₁⟩ ⟨v₂, hv₂, rfl, hw₂, ho₂⟩
        rw [hsame v₁ hv₁ hw₁ ho₁, hsame v₂ hv₂ hw₂ ho₂]
      · rintro w i hne ⟨v, hvm, hi, hw, ho⟩
        obtain ⟨u, hu, rfl⟩ := List.mem_map.mp hvm
        split_ifs at hi hw ho with he hreplaced
        · exact absurd (hw.symm.trans hflow) hne
        · cases ho
        · exact ⟨u, hu, hi, hw, ho⟩
      · rintro w hne ⟨v, hvm, hw, hs⟩
        obtain ⟨u, hu, rfl⟩ := List.mem_map.mp hvm
        split_ifs at hw hs with he hreplaced
        · exact absurd (hw.symm.trans hflow) hne
        · cases hs
        · exact ⟨u, hu, hw, hs⟩
      · rintro w hne ⟨row, hr, hw, he⟩
        cases hrows row hr with
        | inl hold =>
            obtain ⟨r, hr', _, hrw, hre⟩ := hold
            exact ⟨r, hr', hrw.symm.trans hw, hre he⟩
        | inr hnew => exact absurd (hw.symm.trans hnew.1) hne

/-! ### Requests that write workflows -/

theorem updateWorkflow_iff (hk : s.Keys) (hc : s.Consistent) {id : ℕ} (h : s.updateWorkflow id updates = .ok s') :
    s'.Keys ∧ (s'.Consistent ↔ Permitted s (.updateWorkflow id updates)) := by
  obtain ⟨workflow, f, hw, hf, rfl⟩ := Store.updateWorkflow_eq_ok h
  obtain ⟨hm, hwid⟩ := Store.findWorkflow_eq_some hw
  constructor
  · refine hk.rewrite (f := fun v => v) (fun v _ => ⟨rfl, rfl⟩) ?_ ?_ le_rfl hk.triggers
    · exact map_key (fun w _ => (hf w).1)
    · exact (List.map_id' s.versions).symm
  · constructor
    · intro h' hstatus
      refine h'.dormant id ⟨f workflow, List.mem_map_of_mem hm, ?_, ?_⟩
      · rw [(hf workflow).1, hwid]
      · rw [(hf workflow).2, if_pos hwid, hstatus]
        rfl
    · intro hpermitted
      refine ⟨hc.single, ?_⟩
      rintro w ⟨_, hmem, huid, hstatus⟩
      obtain ⟨u, hu, rfl⟩ := List.mem_map.mp hmem
      rw [(hf u).1] at huid
      rw [(hf u).2] at hstatus
      split_ifs at hstatus with he
      · -- the workflow written
        have hsame : u = workflow := hk.workflow_eq hu hm (he.trans hwid.symm)
        have hw : w = id := huid.symm.trans he
        subst hw
        cases hup : updates.status with
        | none =>
            rw [hup] at hstatus
            exact hc.dormant w ⟨workflow, hm, hwid, hstatus⟩
        | some status =>
            rw [hup] at hstatus
            have harchived : status = .archived := hstatus
            exact hpermitted (by rw [hup, harchived])
      · exact hc.dormant w ⟨u, hu, huid, hstatus⟩

theorem archiveWorkflow_ok (hk : s.Keys) (hc : s.Consistent) {id : ℕ} (h : s.archiveWorkflow now id = .ok s') :
    s'.Keys ∧ s'.Consistent := by
  unfold Store.archiveWorkflow at h
  cases hw : s.findWorkflow id with
  | none =>
      rw [hw] at h
      cases h
  | some workflow =>
      rw [hw] at h
      cases h
      -- the versions and rows that stay active belong to other workflows
      have hversions : ∀ v ∈ s.versions.map (fun v => if v.workflowId = id then v.archive now else v),
          (v.status = .online ∨ v.scheduleEnabled = true) → v ∈ s.versions ∧ v.workflowId ≠ id := by
        intro v hv hactive
        obtain ⟨u, hu, rfl⟩ := List.mem_map.mp hv
        split_ifs at hactive ⊢ with he
        · exfalso
          cases hactive with
          | inl ho =>
              unfold WorkflowVersion.archive at ho
              dsimp only at ho
              split_ifs at ho with hs
              exact hs ho
          | inr hs => cases hs
        · exact ⟨hu, he⟩
      have hrows : ∀ row ∈ retireChangeTriggers (fun versionId =>
          s.versions.any (fun v => v.id = versionId ∧ v.workflowId = id)) s.triggers,
          row.enabled = true → row.workflowId ≠ id ∧
            ∃ r ∈ s.triggers, row.workflowId = r.workflowId ∧ r.enabled = true := by
        intro row hr he
        obtain ⟨r, hr', _, hrw, hre⟩ := mem_retireChangeTriggers hr
        obtain ⟨hon, hreplaced⟩ := hre he
        obtain ⟨v, hv, hvid, hvw⟩ := hk.triggers r hr'
        refine ⟨fun hid => ?_, r, hr', hrw, hon⟩
        have := List.any_eq_false.mp hreplaced v hv
        simp [hvid, hvw, ← hrw, hid] at this
      constructor
      · refine hk.rewrite (f := fun v => if v.workflowId = id then v.archive now else v) ?_ ?_ rfl
          le_rfl ?_
        · intro v _
          split_ifs <;> exact ⟨rfl, rfl⟩
        · refine map_key (fun w _ => ?_)
          split_ifs <;> rfl
        · intro row hr
          dsimp only at hr
          obtain ⟨r, hr', hrv, hrw, _⟩ := mem_retireChangeTriggers hr
          rw [hrv, hrw]
          exact hk.triggers r hr'
      · refine ⟨?_, ?_⟩
        · rintro w i₁ i₂ ⟨v₁, hv₁, hi₁, hw₁, ho₁⟩ ⟨v₂, hv₂, hi₂, hw₂, ho₂⟩
          exact hc.single w i₁ i₂ ⟨v₁, (hversions v₁ hv₁ (Or.inl ho₁)).1, hi₁, hw₁, ho₁⟩
            ⟨v₂, (hversions v₂ hv₂ (Or.inl ho₂)).1, hi₂, hw₂, ho₂⟩
        · rintro w ⟨_, hmem, huid, hstatus⟩
          obtain ⟨u, hu, rfl⟩ := List.mem_map.mp hmem
          have hid : w = id ∨ s.Archived w := by
            split_ifs at huid hstatus with he
            · exact Or.inl (huid.symm.trans he)
            · exact Or.inr ⟨u, hu, huid, hstatus⟩
          refine ⟨?_, ?_, ?_⟩
          · rintro i ⟨v, hv, hi, hvw, ho⟩
            obtain ⟨hold, hne⟩ := hversions v hv (Or.inl ho)
            cases hid with
            | inl hid => exact hne (hvw.trans hid)
            | inr ha => exact (hc.dormant w ha).1 i ⟨v, hold, hi, hvw, ho⟩
          · rintro ⟨v, hv, hvw, hs⟩
            obtain ⟨hold, hne⟩ := hversions v hv (Or.inr hs)
            cases hid with
            | inl hid => exact hne (hvw.trans hid)
            | inr ha => exact (hc.dormant w ha).2.1 ⟨v, hold, hvw, hs⟩
          · rintro ⟨row, hr, hrw, he⟩
            obtain ⟨hne, r, hr', hsame, hon⟩ := hrows row hr he
            cases hid with
            | inl hid => exact hne (hrw.trans hid)
            | inr ha => exact (hc.dormant w ha).2.2 ⟨r, hr', hsame.symm.trans hrw, hon⟩

/-! ### Publishing a trigger task -/

/-- The system workflow exists, or a new one is added. -/
theorem Store.ensureTriggerSystemWorkflow_spec (hk : s.Keys) (task : TriggerTask)
    (h : s.ensureTriggerSystemWorkflow task = (s', workflowId)) :
    s'.versions = s.versions ∧ s'.triggers = s.triggers ∧ s.nextId ≤ s'.nextId ∧
      workflowId < s'.nextId ∧ s'.Keys ∧ (∀ w, s'.Archived w ↔ s.Archived w) ∧
        ((∃ workflow, task.systemWorkflowId.bind s.findWorkflow = some workflow ∧
          workflow ∈ s.workflows ∧ workflow.id = workflowId) ∨
          (task.systemWorkflowId.bind s.findWorkflow = none ∧ workflowId = s.nextId)) := by
  unfold Store.ensureTriggerSystemWorkflow at h
  cases hw : task.systemWorkflowId.bind s.findWorkflow with
  | some workflow =>
      rw [hw] at h
      cases h
      obtain ⟨id, _, hfind⟩ := Option.bind_eq_some_iff.mp hw
      obtain ⟨hm, _⟩ := Store.findWorkflow_eq_some hfind
      refine ⟨rfl, rfl, le_rfl, hk.workflowsFresh workflow hm, ?_, ?_, Or.inl ⟨workflow, rfl, hm, rfl⟩⟩
      · refine hk.rewrite (f := fun v => v) (fun v _ => ⟨rfl, rfl⟩) ?_ (List.map_id' s.versions).symm
          le_rfl hk.triggers
        refine map_key (fun w _ => ?_)
        split_ifs <;> rfl
      · intro w
        constructor
        · rintro ⟨_, hmem, hid, hstatus⟩
          obtain ⟨u, hu, rfl⟩ := List.mem_map.mp hmem
          split_ifs at hid hstatus <;> exact ⟨u, hu, hid, hstatus⟩
        · rintro ⟨u, hu, hid, hstatus⟩
          refine ⟨_, List.mem_map_of_mem hu, ?_, ?_⟩ <;> split_ifs <;> assumption
  | none =>
      rw [hw] at h
      cases h
      refine ⟨rfl, rfl, Nat.le_succ _, Nat.lt_succ_self _, ?_, ?_, Or.inr ⟨rfl, rfl⟩⟩
      · refine ⟨?_, hk.versions, ?_, ?_, hk.triggers⟩
        · rw [List.map_append, List.map_singleton]
          refine hk.workflows.append (List.nodup_singleton _) ?_
          rw [List.disjoint_singleton]
          intro hm
          obtain ⟨u, hu, he⟩ := List.mem_map.mp hm
          exact absurd he (hk.workflowsFresh u hu).ne
        · intro w hm
          dsimp only
          rw [List.mem_append, List.mem_singleton] at hm
          cases hm with
          | inl hm =>
              have := hk.workflowsFresh w hm
              omega
          | inr hm =>
              subst hm
              dsimp only
              omega
        · intro v hv
          have := hk.versionsFresh v hv
          dsimp only
          omega
      · intro w
        constructor
        · rintro ⟨u, hu, hid, hstatus⟩
          rw [List.mem_append, List.mem_singleton] at hu
          cases hu with
          | inl hu => exact ⟨u, hu, hid, hstatus⟩
          | inr hu =>
              subst hu
              cases hstatus
        · rintro ⟨u, hu, hid, hstatus⟩
          exact ⟨u, List.mem_append_left _ hu, hid, hstatus⟩

variable {snapshot : Except String ReleaseSnapshot}

theorem Store.publishChangeTriggerTask_eq_ok {id : ℕ}
    (h : s.publishChangeTriggerTask contentHash normalizeTriggerConfig now id snapshot = .ok s') :
    ∃ task s₁ workflowId version triggers, s.findTask id = some task ∧
      s.ensureTriggerSystemWorkflow task = (s₁, workflowId) ∧ version.id = s₁.nextId ∧
        version.workflowId = workflowId ∧ version.status = .online ∧ version.scheduleEnabled = false ∧
      synchronizeChangeTriggers normalizeTriggerConfig now version (s₁.nextId + 1)
        (s₁.withdraw now task.publishedVersionId).triggers = .ok triggers ∧
      s'.workflows = s₁.workflows ∧
        s'.versions = (s₁.withdraw now task.publishedVersionId).versions ++ [version] ∧
          s₁.nextId < s'.nextId ∧ ∀ row ∈ s'.triggers, ∃ r ∈ triggers, r.versionId = row.versionId ∧
            r.workflowId = row.workflowId ∧ (row.versionId ≠ version.id → r = row) := by
  unfold Store.publishChangeTriggerTask at h
  cases ht : s.findTask id with
  | none =>
      rw [ht] at h
      cases h
  | some task =>
      rw [ht] at h
      obtain ⟨_, _, h⟩ := bind_eq_ok.mp h
      obtain ⟨release, _, h⟩ := bind_eq_ok.mp h
      cases hensure : s.ensureTriggerSystemWorkflow task with
      | mk s₁ workflowId =>
          rw [hensure] at h
          obtain ⟨triggers, hsync, h⟩ := bind_eq_ok.mp h
          obtain ⟨_, _, h⟩ := bind_eq_ok.mp h
          cases h
          refine ⟨task, s₁, workflowId, _, triggers, rfl, hensure, ?_, ?_, ?_, ?_, hsync, ?_, ?_, ?_, ?_⟩
          · rfl
          · rfl
          · rfl
          · rfl
          · rfl
          · rfl
          · dsimp only [Store.withdraw]
            omega
          · intro row hr
            obtain ⟨r, hr', rfl⟩ := List.mem_map.mp hr
            refine ⟨r, hr', ?_⟩
            split_ifs with hmonitor
            · exact ⟨rfl, rfl, fun hne => absurd hmonitor.1 hne⟩
            · exact ⟨rfl, rfl, fun _ => rfl⟩

theorem Store.withdraw_triggers (now : ℕ) (published : Option ℕ) : (s.withdraw now published).triggers =
      retireChangeTriggers (fun versionId => published = some versionId) s.triggers := rfl

theorem Store.Keys.withdraw (hk : s.Keys) (now : ℕ) (published : Option ℕ) :
    (s.withdraw now published).Keys := by
  refine hk.rewrite (f := fun v =>
    if published = some v.id then { v with status := .offline, offlineAt := some now } else v)
    ?_ rfl rfl le_rfl ?_
  · intro v _
    split_ifs <;> exact ⟨rfl, rfl⟩
  · intro row hr
    rw [Store.withdraw_triggers] at hr
    obtain ⟨r, hr', hrv, hrw, _⟩ := mem_retireChangeTriggers hr
    rw [hrv, hrw]
    exact hk.triggers r hr'

/-- A version that is withdrawn keeps its schedule flag and is not online. -/
theorem Store.mem_withdraw {published : Option ℕ} {v : WorkflowVersion}
    (h : v ∈ (s.withdraw now published).versions) : ∃ u ∈ s.versions, v.id = u.id ∧
      v.workflowId = u.workflowId ∧ v.scheduleEnabled = u.scheduleEnabled ∧
        (v.status = .online → u.status = .online ∧ published ≠ some u.id) := by
  obtain ⟨u, hu, rfl⟩ := List.mem_map.mp h
  refine ⟨u, hu, ?_⟩
  split_ifs with hp
  · exact ⟨rfl, rfl, rfl, fun ho => by cases ho⟩
  · exact ⟨rfl, rfl, rfl, fun ho => ⟨ho, hp⟩⟩

theorem publishChangeTriggerTask_iff (hk : s.Keys) (hc : s.Consistent) {id : ℕ}
    (h : s.publishChangeTriggerTask contentHash normalizeTriggerConfig now id snapshot = .ok s') :
    s'.Keys ∧ (s'.Consistent ↔ Permitted s (.publishChangeTriggerTask now id snapshot)) := by
  obtain ⟨task, s₁, workflowId, version, triggers, htask, hensure, hid, hflow, hstatus, hscheduled,
    hsync, hworkflows, hversions, hnext, hrows⟩ := Store.publishChangeTriggerTask_eq_ok h
  obtain ⟨hv₁, ht₁, hle, hfresh, hk₁, harchived₁, hsystem⟩ :=
    Store.ensureTriggerSystemWorkflow_spec hk task hensure
  have hk₂ := hk₁.withdraw now task.publishedVersionId
  -- a row of the store reached is a row that was there, or one of the new version
  have htriggers : ∀ row ∈ s'.triggers, row ∈ (s₁.withdraw now task.publishedVersionId).triggers ∨
      (row.versionId = version.id ∧ row.workflowId = version.workflowId) := by
    intro row hr
    obtain ⟨r, hr', hrv, hrw, hsame⟩ := hrows row hr
    have hold : ∀ r₀ ∈ (s₁.withdraw now task.publishedVersionId).triggers,
        r₀.versionId ≠ version.id := by
      intro r₀ hr₀ he
      obtain ⟨v, hv, hvid, _⟩ := hk₂.triggers r₀ hr₀
      have hlt : v.id < s₁.nextId := (hk₂.versionsFresh v hv).1
      omega
    cases mem_synchronizeChangeTriggers hsync hr' with
    | inl hmem =>
        have hne := hold r hmem
        rw [hrv] at hne
        left
        rw [← hsame hne]
        exact hmem
    | inr hnew =>
        obtain ⟨hnew, hkeys⟩ := hnew
        right
        refine ⟨hrv.symm.trans hnew, ?_⟩
        cases hkeys with
        | inl hmem =>
            obtain ⟨r₀, hr₀, hr₀v, _⟩ := hmem
            exact absurd (hr₀v.trans hnew) (hold r₀ hr₀)
        | inr hw => exact hrw.symm.trans hw
  have harchived : ∀ w, s'.Archived w ↔ s.Archived w :=
    fun w => (Store.Archived.congr hworkflows w).trans (harchived₁ w)
  have hmem : version ∈ s'.versions := by
    rw [hversions]
    simp
  -- the versions online afterwards
  have honline : ∀ w i, s'.OnlineIn w i → (w = workflowId ∧ i = version.id) ∨
      (s.OnlineIn w i ∧ task.publishedVersionId ≠ some i) := by
    rintro w i ⟨v, hv, hi, hw, ho⟩
    rw [hversions, List.mem_append, List.mem_singleton] at hv
    cases hv with
    | inl hv =>
        obtain ⟨u, hu, huid, huw, _, huo⟩ := Store.mem_withdraw hv
        rw [hv₁] at hu
        obtain ⟨hon, hpublished⟩ := huo ho
        have hui : u.id = i := huid.symm.trans hi
        exact Or.inr ⟨⟨u, hu, hui, huw.symm.trans hw, hon⟩, by rw [← hui]; exact hpublished⟩
    | inr hv =>
        subst hv
        exact Or.inl ⟨hw.symm.trans hflow, hi.symm⟩
  refine ⟨?_, ?_, ?_⟩
  · refine hk₂.addVersion hid ?_ hworkflows hversions hnext ?_
    · rw [hflow]
      exact hfresh
    · intro row hr
      cases htriggers row hr with
      | inl hold => exact Or.inl ⟨row, hold, rfl, rfl⟩
      | inr hnew => exact Or.inr hnew
  · intro h' task' htask' workflow hworkflow
    rw [Option.mem_def, htask, Option.some.injEq] at htask'
    subst htask'
    rw [Option.mem_def] at hworkflow
    have hsame : workflow ∈ s.workflows ∧ workflow.id = workflowId := by
      cases hsystem with
      | inl hfound =>
          obtain ⟨w, hw, hwm, hwid⟩ := hfound
          rw [hworkflow, Option.some.injEq] at hw
          subst hw
          exact ⟨hwm, hwid⟩
      | inr hnew =>
          rw [hworkflow] at hnew
          cases hnew.1
    constructor
    · intro ha
      have ha' := (harchived workflow.id).mpr ⟨workflow, hsame.1, rfl, ha⟩
      exact (h'.dormant _ ha').1 version.id ⟨version, hmem, rfl, hflow.trans hsame.2.symm, hstatus⟩
    · intro v hv hvw ho
      by_contra hpublished
      have hstays : s'.OnlineIn workflow.id v.id := by
        refine ⟨v, ?_, rfl, hvw, ho⟩
        rw [hversions]
        refine List.mem_append_left _ (List.mem_map.mpr ⟨v, ?_, if_neg hpublished⟩)
        rw [hv₁]
        exact hv
      have heq := h'.single workflow.id v.id version.id hstays
        ⟨version, hmem, rfl, hflow.trans hsame.2.symm, hstatus⟩
      have := (hk.versionsFresh v hv).1
      omega
  · intro hpermitted
    have hinactive : ¬ s'.Archived workflowId := by
      intro ha
      obtain ⟨w, hw, hwid, hwstatus⟩ := (harchived workflowId).mp ha
      cases hsystem with
      | inl hfound =>
          obtain ⟨workflow, hworkflow, hm, hwid'⟩ := hfound
          have heq := hk.workflow_eq hw hm (hwid.trans hwid'.symm)
          exact (hpermitted task htask workflow hworkflow).1 (heq ▸ hwstatus)
      | inr hnew =>
          have := hk.workflowsFresh w hw
          omega
    refine hc.of_except workflowId hinactive ?_ (fun w => (harchived w).mp) ?_ ?_ ?_
    · have honly : ∀ i, s'.OnlineIn workflowId i → i = version.id := by
        intro i hi
        cases honline workflowId i hi with
        | inl hnew => exact hnew.2
        | inr hold =>
            exfalso
            obtain ⟨⟨v, hv, hvid, hvw, ho⟩, hpublished⟩ := hold
            cases hsystem with
            | inl hfound =>
                obtain ⟨workflow, hworkflow, _, hwid⟩ := hfound
                apply hpublished
                rw [← hvid]
                exact (hpermitted task htask workflow hworkflow).2 v hv (hvw.trans hwid.symm) ho
            | inr hnew =>
                have := (hk.versionsFresh v hv).2
                omega
      exact fun i₁ i₂ h₁ h₂ => (honly i₁ h₁).trans (honly i₂ h₂).symm
    · intro w i hne hi
      cases honline w i hi with
      | inl hnew => exact absurd hnew.1 hne
      | inr hold => exact hold.1
    · rintro w hne ⟨v, hv, hw, hs⟩
      rw [hversions, List.mem_append, List.mem_singleton] at hv
      cases hv with
      | inl hv =>
          obtain ⟨u, hu, _, huw, hus, _⟩ := Store.mem_withdraw hv
          rw [hv₁] at hu
          exact ⟨u, hu, huw.symm.trans hw, hus.symm.trans hs⟩
      | inr hv =>
          subst hv
          exact absurd (hw.symm.trans hflow) hne
    · rintro w hne ⟨row, hr, hw, he⟩
      cases htriggers row hr with
      | inl hold =>
          rw [Store.withdraw_triggers] at hold
          obtain ⟨r, hr', _, hrw, hre⟩ := mem_retireChangeTriggers hold
          rw [ht₁] at hr'
          exact ⟨r, hr', hrw.symm.trans hw, (hre he).1⟩
      | inr hnew => exact absurd (hw.symm.trans (hnew.2.trans hflow)) hne

/-! ### Runs of requests -/

/-- In a consistent store a request keeps the store consistent exactly when it is permitted. -/
theorem serve_iff (hk : s.Keys) (hc : s.Consistent) {request : Request}
    (h : requestStep complete contentHash nextScheduleTime normalizeTriggerConfig s request = some s') :
    s'.Keys ∧ (s'.Consistent ↔ Permitted s request) := by
  have hserve : serve complete contentHash nextScheduleTime normalizeTriggerConfig s request = .ok s' := by
    unfold requestStep at h
    cases hr : serve complete contentHash nextScheduleTime normalizeTriggerConfig s request with
    | error text =>
        rw [hr] at h
        cases h
    | ok t =>
        rw [hr] at h
        cases h
        rfl
  cases request with
  | createVersion workflowId body freeze => exact createVersion_iff hk hc hserve
  | updateVersion now actor id updates freeze => exact updateVersion_iff hk hc hserve
  | submitVersion id freeze =>
      obtain ⟨hkeys, hconsistent⟩ := submitVersion_ok hk hc hserve
      exact ⟨hkeys, iff_of_true hconsistent trivial⟩
  | publishVersion now id => exact publishVersion_iff hk hc hserve
  | offlineVersion now id =>
      obtain ⟨hkeys, hconsistent⟩ := offlineVersion_ok hk hc hserve
      exact ⟨hkeys, iff_of_true hconsistent trivial⟩
  | updateWorkflow id updates => exact updateWorkflow_iff hk hc hserve
  | archiveWorkflow now id =>
      obtain ⟨hkeys, hconsistent⟩ := archiveWorkflow_ok hk hc hserve
      exact ⟨hkeys, iff_of_true hconsistent trivial⟩
  | publishChangeTriggerTask now id snapshot => exact publishChangeTriggerTask_iff hk hc hserve

/-- The store is consistent after every request of a run exactly when all its requests are
permitted. -/
theorem consistent_iff_permitted {s₀ : Store V} {requests : List Request} (hstart : s₀.Initial)
    (h : Run (requestStep complete contentHash nextScheduleTime normalizeTriggerConfig) Free
      s₀ requests s) :
    Throughout (requestStep complete contentHash nextScheduleTime normalizeTriggerConfig)
        Store.Consistent s₀ requests ↔
      Run (requestStep complete contentHash nextScheduleTime normalizeTriggerConfig) Permitted
        s₀ requests s :=
  h.throughout_iff hstart.keys hstart.consistent (fun _ _ _ hk hc hs => serve_iff hk hc hs)

end requests

/-! ### A workflow that is archived and published again -/

/-- One workflow without versions. -/
def oneWorkflow : Store ℕ :=
  { workflows := [{ id := 0, name := "flow", status := .active }], nextId := 1 }

abbrev oneWorkflowStep : Store ℕ → Request → Option (Store ℕ) :=
  requestStep (fun _ => false) (fun _ => "") (fun _ after => .ok (after + 86400))
    (fun _ _ => .error "")

/-- A prod version with one node. -/
def submitLoad : Request :=
  .createVersion 0 { channel := .prod, nodes := [{ key := "load", name := "load" }] } (fun nodes => .ok nodes)

/-- A version published after its workflow was archived is online. -/
theorem archived_published : oneWorkflow.Initial ∧ ∃ s, Run oneWorkflowStep Free oneWorkflow
    [submitLoad, .archiveWorkflow 10 0, .publishVersion 20 1] s ∧ ¬ s.Consistent := by
  refine ⟨⟨by decide, by decide, rfl, rfl⟩, ?_⟩
  obtain ⟨s, h, ha, version, hv, ho⟩ : ∃ s, Run oneWorkflowStep Free oneWorkflow
      [submitLoad, .archiveWorkflow 10 0, .publishVersion 20 1] s ∧ s.Archived 0 ∧
        ∃ version ∈ s.versions, version.workflowId = 0 ∧ version.status = .online :=
    exists_run (by decide)
  exact ⟨s, h, fun hc => (hc.dormant 0 ha).1 version.id ⟨version, hv, rfl, ho⟩⟩

/-- A version published before its workflow is archived is taken offline. -/
theorem published_archived : ∃ s, Run oneWorkflowStep Permitted oneWorkflow
    [submitLoad, .publishVersion 10 1, .archiveWorkflow 20 0] s ∧
      Throughout oneWorkflowStep Store.Consistent oneWorkflow
        [submitLoad, .publishVersion 10 1, .archiveWorkflow 20 0] := by
  obtain ⟨s, h, _⟩ : ∃ s, Run oneWorkflowStep Permitted oneWorkflow
      [submitLoad, .publishVersion 10 1, .archiveWorkflow 20 0] s ∧ s.Archived 0 :=
    exists_run (by decide)
  have hstart : oneWorkflow.Initial := ⟨by decide, by decide, rfl, rfl⟩
  exact ⟨s, h, (consistent_iff_permitted hstart (h.mono (fun _ _ _ => trivial))).mpr h⟩

end RecoveryService.DataPlatform
