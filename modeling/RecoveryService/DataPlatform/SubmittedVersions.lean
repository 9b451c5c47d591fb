import RecoveryService.DataPlatform.ArchivedWorkflows
import RecoveryService.DataPlatform.ContentHash

/-! # What a submitted version executes

`submit_version` returns the newest prod version of the workflow with the hash of the frozen source,
or else stores a new one.  In every store that a run of requests reaches, the version it returns
executes the work of the frozen source if and only if that newest version agrees with it on the
values read under dropped names; submitted again, the source gives the same version
(`submit_sameWork_iff`). -/

namespace RecoveryService.DataPlatform

open Checks Runs ChangeTrigger

variable {V : Type}

/-- The newest prod version of a workflow with a hash. -/
def newestProd (versions : List WorkflowVersion) (workflowId : ℕ) (hash : String) : Option WorkflowVersion :=
  (versions.filter (fun v => v.workflowId = workflowId ∧ v.channel = .prod ∧
    v.executionContentHash = hash)).argmax WorkflowVersion.versionNo

/-- The snapshot of the frozen nodes of a version. -/
def WorkflowVersion.frozenRelease (source : WorkflowVersion) (freeze : Freeze) :
    Except String ReleaseSnapshot := do
  let nodes ← freeze source.nodes
  buildReleaseSnapshot nodes source.edges (source.rule.payload source.businessMetadata)

/-- What the executor runs of a version. -/
def WorkflowVersion.work (version : WorkflowVersion) : Work :=
  { nodes := version.releaseNodes.map NodeSpec.work
    edges := version.releaseEdges }

section submit

variable (complete : NodeSpec → Bool) (contentHash : ReleaseSnapshot → String)

/-- The prod version that is stored for a source. -/
def Store.submitted (s : Store V) (source : WorkflowVersion) (nodes : List NodeSpec)
    (release : ReleaseSnapshot) : WorkflowVersion :=
  { id := s.nextId
    workflowId := source.workflowId
    versionNo := nextVersionNo s.versions source.workflowId .prod
    channel := .prod
    status := .submitted
    nodes := nodes
    edges := source.edges
    businessMetadata := source.businessMetadata
    releaseSnapshot := some release
    executionContentHash := contentHash release
    scheduleEnabled := source.scheduleEnabled
    rule := source.rule }

/-- `submit_version`: the store after it and the version it returns. -/
def Store.submit (s : Store V) (id : ℕ) (freeze : Freeze) : Except String (Store V × WorkflowVersion) :=
  match s.findVersion id with
  | none => .error "Workflow version does not exist."
  | some source => do
      let nodes ← freeze source.nodes
      validateComponentTaskBindings complete nodes
      let release ← buildReleaseSnapshot nodes source.edges (source.rule.payload source.businessMetadata)
      let version := s.submitted contentHash source nodes release
      match newestProd s.versions source.workflowId (contentHash release) with
      | some existing => return (s, existing)
      | none => return ({ s with versions := s.versions ++ [version], nextId := s.nextId + 1 }, version)

end submit

variable {complete : NodeSpec → Bool} {contentHash : ReleaseSnapshot → String} {s s' : Store V}
variable {versions : List WorkflowVersion}
variable {workflowId : ℕ} {hash : String}

theorem newestProd_eq_none : newestProd versions workflowId hash = none ↔ versions.any (fun v =>
      v.workflowId = workflowId ∧ v.channel = .prod ∧ v.executionContentHash = hash) = false := by
  unfold newestProd
  rw [List.argmax_eq_none, List.filter_eq_nil_iff, List.any_eq_false]

variable {version : WorkflowVersion}

theorem mem_of_newestProd (h : newestProd versions workflowId hash = some version) :
    version ∈ versions ∧ version.workflowId = workflowId ∧ version.channel = .prod ∧
      version.executionContentHash = hash := by
  have hmem := List.mem_filter.mp (List.argmax_mem h)
  exact ⟨hmem.1, of_decide_eq_true hmem.2⟩

/-- The prod versions of a workflow. -/
def prodVersions (versions : List WorkflowVersion) (workflowId : ℕ) : List WorkflowVersion :=
  versions.filter (fun v => v.workflowId = workflowId ∧ v.channel = .prod)

/-- The only prod version is the newest one. -/
theorem newestProd_only (hmem : version ∈ prodVersions versions workflowId)
    (hone : (prodVersions versions workflowId).length = 1) (hhash : version.executionContentHash = hash) :
    newestProd versions workflowId hash = some version := by
  have honly : prodVersions versions workflowId = [version] := by
    obtain ⟨v, hv⟩ := List.length_eq_one_iff.mp hone
    rw [hv, List.mem_singleton] at hmem
    rw [hv, hmem]
  have hfilter : versions.filter (fun v => v.workflowId = workflowId ∧ v.channel = .prod ∧
      v.executionContentHash = hash) =
      (prodVersions versions workflowId).filter (fun v => v.executionContentHash = hash) := by
    rw [prodVersions, List.filter_filter]
    refine List.filter_congr fun v _ => ?_
    rw [← Bool.decide_and, decide_eq_decide]
    tauto
  rw [newestProd, hfilter, honly, List.filter_singleton, hhash, decide_eq_true rfl]
  rfl

/-- The store it leaves is that of `Store.submitVersion`. -/
theorem submit_store (id : ℕ) (freeze : Freeze) : (s.submit complete contentHash id freeze).map Prod.fst =
      s.submitVersion complete contentHash id freeze := by
  unfold Store.submit Store.submitVersion
  cases s.findVersion id with
  | none => rfl
  | some source =>
      simp only [bind, Except.bind, pure, Except.pure]
      cases freeze source.nodes with
      | error text => rfl
      | ok nodes =>
          dsimp only
          cases validateComponentTaskBindings complete nodes with
          | error text => rfl
          | ok u =>
              dsimp only
              cases buildReleaseSnapshot nodes source.edges
                  (source.rule.payload source.businessMetadata) with
              | error text => rfl
              | ok release =>
                  dsimp only
                  -- a stored version is found exactly when there is a newest one
                  cases hnew : newestProd s.versions source.workflowId (contentHash release) with
                  | none =>
                      rw [newestProd_eq_none.mp hnew]
                      rfl
                  | some existing =>
                      have hsome : newestProd s.versions source.workflowId (contentHash release) ≠ none :=
                        hnew ▸ nofun
                      rw [Bool.eq_true_of_not_eq_false (mt newestProd_eq_none.mpr hsome)]
                      rfl

variable {freeze : Freeze}
variable {source : WorkflowVersion} {release : ReleaseSnapshot}

theorem submit_existing {id : ℕ} {existing : WorkflowVersion} {nodes : List NodeSpec}
    (hv : s.findVersion id = some source) (hnodes : freeze source.nodes = .ok nodes)
    (hbound : validateComponentTaskBindings complete nodes = .ok ())
    (hrelease : source.frozenRelease freeze = .ok release)
    (hnew : newestProd s.versions source.workflowId (contentHash release) = some existing) :
    s.submit complete contentHash id freeze = .ok (s, existing) := by
  obtain ⟨nodes', hnodes', hbuilt⟩ := bind_eq_ok.mp hrelease
  obtain rfl := Except.ok.inj (hnodes.symm.trans hnodes')
  unfold Store.submit
  rw [hv]
  refine bind_eq_ok.mpr ⟨nodes, hnodes, bind_eq_ok.mpr ⟨(), hbound, bind_eq_ok.mpr ⟨release, hbuilt, ?_⟩⟩⟩
  rw [hnew]
  rfl

theorem Store.submit_eq_ok {id : ℕ} (h : s.submit complete contentHash id freeze = .ok (s', version)) :
    ∃ source nodes release, s.findVersion id = some source ∧ freeze source.nodes = .ok nodes ∧
      validateComponentTaskBindings complete nodes = .ok () ∧
      buildReleaseSnapshot nodes source.edges
        (source.rule.payload source.businessMetadata) = .ok release ∧
      (newestProd s.versions source.workflowId (contentHash release) = some version ∧ s' = s ∨
        newestProd s.versions source.workflowId (contentHash release) = none ∧
          version = s.submitted contentHash source nodes release ∧
            s' = { s with versions := s.versions ++ [version], nextId := s.nextId + 1 }) := by
  unfold Store.submit at h
  cases hv : s.findVersion id with
  | none =>
      rw [hv] at h
      cases h
  | some source =>
      rw [hv] at h
      obtain ⟨nodes, hnodes, h⟩ := bind_eq_ok.mp h
      obtain ⟨_, hbound, h⟩ := bind_eq_ok.mp h
      obtain ⟨release, hrelease, h⟩ := bind_eq_ok.mp h
      refine ⟨source, nodes, release, rfl, hnodes, hbound, hrelease, ?_⟩
      dsimp only at h
      cases hnew : newestProd s.versions source.workflowId (contentHash release) with
      | some existing =>
          rw [hnew] at h
          cases h
          exact .inl ⟨rfl, rfl⟩
      | none =>
          rw [hnew] at h
          cases h
          exact .inr ⟨rfl, rfl, rfl⟩

theorem Store.submit_of_newest {id : ℕ} {nodes : List NodeSpec} (hv : s.findVersion id = some source)
    (hnodes : freeze source.nodes = .ok nodes) (hbound : validateComponentTaskBindings complete nodes = .ok ())
    (hrelease : buildReleaseSnapshot nodes source.edges
      (source.rule.payload source.businessMetadata) = .ok release)
    (hnew : newestProd s.versions source.workflowId (contentHash release) = some version) :
    s.submit complete contentHash id freeze = .ok (s, version) := by
  unfold Store.submit
  rw [hv]
  simp only [hnodes, hbound, hrelease, hnew, bind, Except.bind, pure, Except.pure]

/-- A version that is stored for want of another is found by its hash. -/
theorem newestProd_append (h : newestProd versions version.workflowId version.executionContentHash = none)
    (hprod : version.channel = .prod) :
    newestProd (versions ++ [version]) version.workflowId version.executionContentHash =
      some version := by
  unfold newestProd at h ⊢
  rw [List.argmax_eq_none] at h
  rw [List.filter_append, h, List.nil_append, List.filter_cons_of_pos (by simp [hprod])]
  rfl

/-- The source gives the same version when it is submitted again. -/
theorem submit_again {id : ℕ} (h : s.submit complete contentHash id freeze = .ok (s', version)) :
    s'.submit complete contentHash id freeze = .ok (s', version) := by
  obtain ⟨source, nodes, release, hv, hnodes, hbound, hrelease, h⟩ := Store.submit_eq_ok h
  rcases h with ⟨hnew, rfl⟩ | ⟨hnew, hversion, rfl⟩
  · exact Store.submit_of_newest hv hnodes hbound hrelease hnew
  · have hfind : Store.findVersion { s with
        versions := s.versions ++ [version], nextId := s.nextId + 1 } id = some source := by
      unfold Store.findVersion at hv ⊢
      rw [List.find?_append, hv]
      rfl
    refine Store.submit_of_newest hfind hnodes hbound hrelease ?_
    have hflow : version.workflowId = source.workflowId := by rw [hversion]; rfl
    have hhash : version.executionContentHash = contentHash release := by rw [hversion]; rfl
    rw [← hflow, ← hhash] at hnew ⊢
    exact newestProd_append hnew (by rw [hversion]; rfl)

/-! ### The releases of a store -/

/-- The version carries its release, and the hash of it. -/
def WorkflowVersion.Stamped (contentHash : ReleaseSnapshot → String) (version : WorkflowVersion) : Prop :=
  ∃ release, version.releaseSnapshot = some release ∧
    version.executionContentHash = contentHash release ∧
      version.nodes = release.nodes ∧ version.edges = release.edges

def Store.Stamped (contentHash : ReleaseSnapshot → String) (s : Store V) : Prop :=
  ∀ version ∈ s.versions, version.Stamped contentHash

section stamped

variable {nextScheduleTime : ScheduleRule → ℕ → Except String ℕ}
  {normalizeTriggerConfig : List NodeSpec → Json → Except String (TriggerConfig V)}

theorem WorkflowVersion.Stamped.congr {v w : WorkflowVersion} (h : v.Stamped contentHash)
    (hrelease : w.releaseSnapshot = v.releaseSnapshot)
    (hhash : w.executionContentHash = v.executionContentHash) (hnodes : w.nodes = v.nodes)
    (hedges : w.edges = v.edges) : w.Stamped contentHash := by
  obtain ⟨release, h₁, h₂, h₃, h₄⟩ := h
  exact ⟨release, hrelease.trans h₁, hhash.trans h₂, hnodes.trans h₃, hedges.trans h₄⟩

variable {version : WorkflowVersion}
variable {versions : List WorkflowVersion}

theorem Store.Stamped.append (h : ∀ v ∈ versions, v.Stamped contentHash) (hv : version.Stamped contentHash) :
    ∀ v ∈ versions ++ [version], v.Stamped contentHash := by
  intro v hm
  rcases List.mem_append.mp hm with hm | hm
  · exact h v hm
  · rwa [List.mem_singleton.mp hm]

/-- Rewriting versions but for their releases. -/
theorem Store.Stamped.map {f : WorkflowVersion → WorkflowVersion}
    (hf : ∀ v ∈ versions, (f v).Stamped contentHash) : ∀ v ∈ versions.map f, v.Stamped contentHash := by
  intro v hm
  obtain ⟨u, hu, rfl⟩ := List.mem_map.mp hm
  exact hf u hu

variable {freeze : Freeze}

theorem createVersion_stamped (hs : s.Stamped contentHash) {workflowId : ℕ} {body : VersionBody}
    (h : s.createVersion contentHash workflowId body freeze = .ok s') : s'.Stamped contentHash := by
  unfold Store.createVersion at h
  cases hw : s.findWorkflow workflowId with
  | none =>
      rw [hw] at h
      cases h
  | some workflow =>
      rw [hw] at h
      obtain ⟨items, _, h⟩ := bind_eq_ok.mp h
      obtain ⟨nodes, _, h⟩ := bind_eq_ok.mp h
      obtain ⟨release, hrelease, h⟩ := bind_eq_ok.mp h
      cases h
      obtain ⟨-, -, hnodes, hedges⟩ := buildReleaseSnapshot_ok hrelease
      exact Store.Stamped.append hs ⟨release, rfl, rfl, hnodes.symm, hedges.symm⟩

theorem updateVersion_stamped (hs : s.Stamped contentHash) {now id : ℕ} {actor : Actor}
    {updates : VersionUpdates}
    (h : s.updateVersion contentHash nextScheduleTime now actor id updates freeze = .ok s') :
    s'.Stamped contentHash := by
  unfold Store.updateVersion at h
  cases hv : s.findVersion id with
  | none =>
      rw [hv] at h
      cases h
  | some version =>
      rw [hv] at h
      obtain ⟨_, _, h⟩ := bind_eq_ok.mp h
      obtain ⟨_, _, h⟩ := bind_eq_ok.mp h
      obtain ⟨_, _, h⟩ := bind_eq_ok.mp h
      obtain ⟨nextRunAt, _, h⟩ := bind_eq_ok.mp h
      obtain ⟨nodes, _, h⟩ := bind_eq_ok.mp h
      obtain ⟨release, hrelease, h⟩ := bind_eq_ok.mp h
      cases h
      obtain ⟨-, -, hnodes, hedges⟩ := buildReleaseSnapshot_ok hrelease
      intro v hm
      rcases mem_setVersion hm with rfl | ⟨hm, -⟩
      · exact ⟨release, rfl, rfl, hnodes.symm, hedges.symm⟩
      · exact hs v hm

theorem submit_stamped (hs : s.Stamped contentHash) {id : ℕ}
    (h : s.submit complete contentHash id freeze = .ok (s', version)) :
    s'.Stamped contentHash ∧ version.Stamped contentHash := by
  obtain ⟨source, nodes, release, hv, hnodes, hbound, hrelease, h⟩ := Store.submit_eq_ok h
  rcases h with ⟨hnew, rfl⟩ | ⟨-, hversion, rfl⟩
  · exact ⟨hs, hs version (mem_of_newestProd hnew).1⟩
  · obtain ⟨-, -, hn, he⟩ := buildReleaseSnapshot_ok hrelease
    have hstamped : version.Stamped contentHash := by
      rw [hversion]
      exact ⟨release, rfl, rfl, hn.symm, he.symm⟩
    exact ⟨Store.Stamped.append hs hstamped, hstamped⟩

theorem submitVersion_stamped (hs : s.Stamped contentHash) {id : ℕ}
    (h : s.submitVersion complete contentHash id freeze = .ok s') : s'.Stamped contentHash := by
  rw [← submit_store] at h
  cases hsubmit : s.submit complete contentHash id freeze with
  | error text =>
      rw [hsubmit] at h
      cases h
  | ok result =>
      rw [hsubmit] at h
      cases h
      exact (submit_stamped hs hsubmit).1

theorem publishVersion_stamped (hs : s.Stamped contentHash) {now id : ℕ}
    (h : s.publishVersion complete nextScheduleTime normalizeTriggerConfig now id = .ok s') :
    s'.Stamped contentHash := by
  unfold Store.publishVersion at h
  cases hv : s.findVersion id with
  | none =>
      rw [hv] at h
      cases h
  | some version =>
      rw [hv] at h
      obtain ⟨_, _, h⟩ := bind_eq_ok.mp h
      obtain ⟨_, _, h⟩ := bind_eq_ok.mp h
      obtain ⟨_, _, h⟩ := bind_eq_ok.mp h
      obtain ⟨nextRunAt, _, h⟩ := bind_eq_ok.mp h
      obtain ⟨triggers, _, h⟩ := bind_eq_ok.mp h
      cases h
      refine Store.Stamped.map (fun v hm => ?_)
      split_ifs
      · exact (hs version (Store.findVersion_eq_some hv).1).congr rfl rfl rfl rfl
      · exact (hs v hm).congr rfl rfl rfl rfl
      · exact hs v hm

theorem withdraw_stamped (hs : s.Stamped contentHash) (now : ℕ) (published : Option ℕ) :
    (s.withdraw now published).Stamped contentHash := by
  refine Store.Stamped.map (fun v hm => ?_)
  split_ifs
  · exact (hs v hm).congr rfl rfl rfl rfl
  · exact hs v hm

theorem publishChangeTriggerTask_stamped (hs : s.Stamped contentHash) {now id : ℕ}
    {snapshot : Except String ReleaseSnapshot}
    (h : s.publishChangeTriggerTask contentHash normalizeTriggerConfig now id snapshot = .ok s') :
    s'.Stamped contentHash := by
  unfold Store.publishChangeTriggerTask at h
  cases ht : s.findTask id with
  | none =>
      rw [ht] at h
      cases h
  | some task =>
      rw [ht] at h
      obtain ⟨_, _, h⟩ := bind_eq_ok.mp h
      obtain ⟨release, _, h⟩ := bind_eq_ok.mp h
      cases hensure : s.ensureTriggerSystemWorkflow task with
      | mk s₁ workflowId =>
          rw [hensure] at h
          obtain ⟨triggers, _, h⟩ := bind_eq_ok.mp h
          obtain ⟨_, _, h⟩ := bind_eq_ok.mp h
          cases h
          have hs₁ : s₁.Stamped contentHash := by
            unfold Store.ensureTriggerSystemWorkflow at hensure
            split at hensure <;> cases hensure <;> exact hs
          exact Store.Stamped.append (withdraw_stamped hs₁ now _) ⟨release, rfl, rfl, rfl, rfl⟩

theorem serve_stamped (hs : s.Stamped contentHash) {request : Request}
    (h : requestStep complete contentHash nextScheduleTime normalizeTriggerConfig s request = some s') :
    s'.Stamped contentHash := by
  have hserve := toOption_eq_some.mp h
  cases request with
  | createVersion workflowId body freeze => exact createVersion_stamped hs hserve
  | updateVersion now actor id updates freeze => exact updateVersion_stamped hs hserve
  | submitVersion id freeze => exact submitVersion_stamped hs hserve
  | publishVersion now id => exact publishVersion_stamped hs hserve
  | offlineVersion now id =>
      change s.offlineVersion now id = _ at hserve
      unfold Store.offlineVersion at hserve
      cases hv : s.findVersion id with
      | none =>
          rw [hv] at hserve
          cases hserve
      | some version =>
          rw [hv] at hserve
          cases hserve
          intro v hm
          rcases mem_setVersion hm with rfl | ⟨hm, -⟩
          · exact (hs version (Store.findVersion_eq_some hv).1).congr rfl rfl rfl rfl
          · exact hs v hm
  | updateWorkflow id updates =>
      obtain ⟨_, _, -, -, rfl⟩ := Store.updateWorkflow_eq_ok hserve
      exact hs
  | archiveWorkflow now id =>
      change s.archiveWorkflow now id = _ at hserve
      unfold Store.archiveWorkflow at hserve
      cases hw : s.findWorkflow id with
      | none =>
          rw [hw] at hserve
          cases hserve
      | some workflow =>
          rw [hw] at hserve
          cases hserve
          refine Store.Stamped.map (fun v hm => ?_)
          split_ifs
          · exact (hs v hm).congr rfl rfl rfl rfl
          · exact hs v hm
  | publishChangeTriggerTask now id snapshot => exact publishChangeTriggerTask_stamped hs hserve

/-! ### The work of a submitted version -/

/-- The floats of the releases are kept as Python prints them, in the versions of the store and in
what `freeze` makes of them. -/
def Store.floatsPrinted (s : Store V) (freeze : Freeze) : Bool :=
  s.versions.all (fun v => v.releaseSnapshot.all (fun r => r.json.floatsPrinted) &&
    (v.frozenRelease freeze).toOption.all (fun r => r.json.floatsPrinted))

theorem Store.floatsPrinted_iff : s.floatsPrinted freeze = true ↔
    ∀ v ∈ s.versions, (∀ r, v.releaseSnapshot = some r → r.json.floatsPrinted = true) ∧
      ∀ r, v.frozenRelease freeze = .ok r → r.json.floatsPrinted = true := by
  simp only [Store.floatsPrinted, List.all_eq_true, Bool.and_eq_true, Option.all_eq_true,
    toOption_eq_some]

theorem WorkflowVersion.work_of_release {release : ReleaseSnapshot}
    (hrelease : version.releaseSnapshot = some release) (hnodes : version.nodes = release.nodes)
    (hedges : version.edges = release.edges) : version.work = release.work := by
  have hn : version.releaseNodes = release.nodes := by
    unfold WorkflowVersion.releaseNodes
    rw [hrelease, hnodes]
    exact ite_self _
  have he : version.releaseEdges = release.edges := by
    unfold WorkflowVersion.releaseEdges
    rw [hrelease, hedges]
    exact ite_self _
  unfold WorkflowVersion.work ReleaseSnapshot.work
  rw [hn, he]

end stamped

/-! ### A column that is renamed -/

/-- A synchronisation of one column, without column mappings. -/
def syncColumn (column : String) : Request :=
  .createVersion 0 { nodes := [{
    key := "sync"
    name := "sync"
    nodeType := .dataSync
    config := .obj [("source_connection_id", .str "c1"), ("target_connection_id", .str "c1"),
      ("source_schema", .str "app"), ("target_database", .str "ods"),
      ("table_mappings", .arr [.obj [("source_table", .str "users"),
        ("source_columns", .arr [.obj [("name", .str column), ("type", .str "STRING")]])]])] }] }
    (fun nodes => .ok nodes)

abbrev syncStep : Store ℕ → Request → Option (Store ℕ) :=
  requestStep (fun _ => true) (executionContentHash id) (fun _ after => .ok (after + 86400))
    (fun _ _ => .error "")

abbrev submitSync (s : Store ℕ) (version : ℕ) : Except String (Store ℕ × WorkflowVersion) :=
  s.submit (fun _ => true) (executionContentHash id) version (fun nodes => .ok nodes)

/-- The letters of the values a release reads. -/
def Work.letters (work : Work) : List (List Char) := work.nodes.map (fun node => Json.text node.reads)

/-- The hashes are compared as letters. -/
theorem syncColumn_run : ∃ s, Run syncStep Free oneWorkflow
      [syncColumn "id", .submitVersion 1 (fun nodes => .ok nodes), syncColumn "phone"] s ∧
      s.floatsPrinted (fun nodes => .ok nodes) = true ∧
      ∃ source ∈ s.findVersion 3, ∃ release ∈ (source.frozenRelease (fun nodes => .ok nodes)).toOption,
        (validateComponentTaskBindings (fun _ => true) source.nodes).toOption = some () ∧
        ∃ existing ∈ prodVersions s.versions source.workflowId,
          (prodVersions s.versions source.workflowId).length = 1 ∧
          ∃ stored ∈ existing.releaseSnapshot,
            Json.text (Json.canonical isIgnored stored.json) = Json.text (Json.canonical isIgnored release.json) ∧
            existing.work.letters ≠ release.work.letters :=
  exists_run (by decide +kernel)

/-- The version submitted under the new name is the one submitted under the old one. -/
theorem syncColumn_submitted : ∃ s version source release, Run syncStep Free oneWorkflow
      [syncColumn "id", .submitVersion 1 (fun nodes => .ok nodes), syncColumn "phone"] s ∧
      s.floatsPrinted (fun nodes => .ok nodes) = true ∧ submitSync s 3 = .ok (s, version) ∧
      s.findVersion 3 = some source ∧ source.frozenRelease (fun nodes => .ok nodes) = .ok release ∧
      version.work ≠ release.work := by
  obtain ⟨s, hrun, hfloats, source, hv, release, hfrozen, hbound, existing, hmem, hone, stored, hstored, htext,
    hne⟩ := syncColumn_run
  have hstamped : s.Stamped (executionContentHash id) := by
    refine hrun.invariant ?_ (fun _ _ _ _ hstep hs => serve_stamped hs hstep)
    intro v hv
    exact absurd hv List.not_mem_nil
  obtain ⟨stored', hstored', hstamp, -⟩ := hstamped existing (List.mem_of_mem_filter hmem)
  obtain rfl := Option.some.inj (hstored.symm.trans hstored')
  have hhash : existing.executionContentHash = executionContentHash id release :=
    hstamp.trans (congrArg String.ofList htext)
  replace hfrozen := toOption_eq_some.mp hfrozen
  refine ⟨s, existing, source, release, hrun, hfloats, ?_, hv, hfrozen, fun h => hne (congrArg Work.letters h)⟩
  exact submit_existing hv rfl (toOption_eq_some.mp hbound) hfrozen (newestProd_only hmem hone hhash)

end RecoveryService.DataPlatform
