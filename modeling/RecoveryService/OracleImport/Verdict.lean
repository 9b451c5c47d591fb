import RecoveryService.OracleImport.RunImport

/-! # The verdict on an import

The commands that an import owes are those of the plan, or its fallback where the `SCHEMAS` attempt
selected no objects.  The verdict is right when the import returns exactly where each of them exits with 0 or
has only compilation warnings in its own log, and when it executes them one behind the other.  It is read
from all logs of the directory and ends at the first command that fails, so that it is right under
the condition `HoldsWhen` only. -/

namespace RecoveryService.OracleImport

variable (world : World) (plan : ImportPlan)

/-! ### The claim -/

/-- A command that exits with 0 or has only ORA-39082 errors, and one at least, in its own log. -/
def Fine (c : Command) : Prop :=
  (world.attempt c).exitCode = 0 ∨ onlyCompileWarnings (world.attempt c).log = true

/-- The `SCHEMAS` attempt has failed because it selected no objects. -/
def Abandoned : Prop :=
  plan.fallbackCommands ≠ [] ∧
    ∃ c ∈ plan.commands, (world.attempt c).exitCode ≠ 0 ∧ selectsNoObjects (world.attempt c).log = true

instance : Decidable (Fine world c) := inferInstanceAs (Decidable (_ ∨ _))

instance : Decidable (Abandoned world plan) := inferInstanceAs (Decidable (_ ∧ _))

/-- The commands that have to be executed. -/
def due : List Command := if Abandoned world plan then plan.fallbackCommands else plan.commands

/-- `run_import` returns normally. -/
def Returns : Prop := ∃ status, (runImport world plan).1 = .ok status

def executed : List Command := (runImport world plan).2.executed

structure Verdict : Prop where
  returns_iff : Returns world plan ↔ ∀ c ∈ due world plan, Fine world c
  complete : Returns world plan → ∀ c ∈ due world plan, c ∈ executed world plan
  /-- A command that is fine does not cause the next one to be skipped. -/
  continues : ∀ before c next rest, due world plan = before ++ c :: next :: rest →
    (∀ b ∈ before, Fine world b) → Fine world c → next ∈ executed world plan

/-! ### The condition -/

/-- The commands before the first one that does not exit with 0, that command, and the others. -/
def firstFailure : List Command → Option (List Command × Command × List Command)
  | [] => none
  | c :: rest =>
      if (world.attempt c).exitCode ≠ 0 then some ([], c, rest)
      else (firstFailure rest).map fun (before, f, after) => (c :: before, f, after)

/-- The lines of the logs of some commands. -/
def logLines (cs : List Command) : List String := cs.flatMap fun c => (world.attempt c).log

/-- The commands whose logs are there before the first of the due ones. -/
def earlier : List Command := if Abandoned world plan then plan.commands else []

/-- The repair does not raise. -/
def Repairs : Prop := ∃ warns, world.repair = .ok warns

def HoldsWhen : Prop :=
  plan.commands ≠ [] ∧
    match firstFailure world (due world plan) with
    | none => Repairs world
    | some (before, f, after) =>
        (Fine world f → after = []) ∧
          (Fine world f ↔ onlyCompileWarnings (logLines world (earlier world plan ++ before ++ [f])) = true ∧
            Repairs world)

variable {world plan}

/-! ### The run of a list of commands -/

variable {cs : List Command}

theorem firstFailure_none (h : firstFailure world cs = none) : ∀ c ∈ cs, (world.attempt c).exitCode = 0 := by
  induction cs with
  | nil => exact fun _ hc => absurd hc List.not_mem_nil
  | cons c rest ih =>
      rw [firstFailure] at h
      split at h
      · cases h
      · next hzero =>
          rw [Option.map_eq_none_iff] at h
          intro d hd
          rcases List.mem_cons.mp hd with rfl | hd
          · exact not_not.mp hzero
          · exact ih h d hd

variable {before after : List Command} {f : Command}

theorem firstFailure_some (h : firstFailure world cs = some (before, f, after)) :
    cs = before ++ f :: after ∧ (∀ c ∈ before, (world.attempt c).exitCode = 0) ∧
      (world.attempt f).exitCode ≠ 0 := by
  induction cs generalizing before with
  | nil => cases h
  | cons c rest ih =>
      rw [firstFailure] at h
      split at h
      · next hfails =>
          cases h
          exact ⟨rfl, fun _ hc => absurd hc List.not_mem_nil, hfails⟩
      · next hzero =>
          obtain ⟨⟨before', f', after'⟩, hrest, heq⟩ := Option.map_eq_some_iff.mp h
          cases heq
          obtain ⟨hcs, hbefore, hf⟩ := ih hrest
          refine ⟨by rw [hcs]; rfl, fun d hd => ?_, hf⟩
          rcases List.mem_cons.mp hd with rfl | hd
          · exact not_not.mp hzero
          · exact hbefore d hd

theorem runCommands_none (h : firstFailure world cs = none) (r : Run) :
    runCommands world cs r = (cs.foldl (runProcess world) r, none) := by
  induction cs generalizing r with
  | nil => rfl
  | cons c rest ih =>
      rw [firstFailure] at h
      split at h
      · cases h
      · next hzero =>
          rw [runCommands, if_neg hzero, ih (Option.map_eq_none_iff.mp h), List.foldl_cons]

theorem runCommands_some (h : firstFailure world cs = some (before, f, after)) (r : Run) :
    runCommands world cs r = ((before ++ [f]).foldl (runProcess world) r, some f) := by
  induction cs generalizing before r with
  | nil => cases h
  | cons c rest ih =>
      rw [firstFailure] at h
      split at h
      · next hfails =>
          cases h
          rw [runCommands, if_pos hfails]
          rfl
      · next hzero =>
          obtain ⟨⟨before', f', after'⟩, hrest, heq⟩ := Option.map_eq_some_iff.mp h
          cases heq
          rw [runCommands, if_neg hzero, ih hrest]
          rfl

theorem executed_foldl (cs : List Command) (r : Run) :
    (cs.foldl (runProcess world) r).executed = r.executed ++ cs := by
  induction cs generalizing r with
  | nil => rw [List.append_nil, List.foldl_nil]
  | cons c rest ih =>
      rw [List.foldl_cons, ih]
      change r.executed ++ [c] ++ rest = r.executed ++ c :: rest
      rw [List.append_assoc, List.singleton_append]

/-! ### The copied logs -/

/-- A log that no command writes is as before. -/
theorem files_foldl_of_not_mem {name : String} (h : name ∉ cs.map Command.log) (r : Run) :
    (cs.foldl (runProcess world) r).files name = r.files name := by
  induction cs generalizing r with
  | nil => rfl
  | cons c rest ih =>
      rw [List.map_cons, List.mem_cons, not_or] at h
      rw [List.foldl_cons, ih h.2]
      exact Function.update_of_ne h.1 _ _

theorem files_foldl (h : (cs.map Command.log).Nodup) {c : Command} (hc : c ∈ cs) (r : Run) :
    (cs.foldl (runProcess world) r).files c.log = some (world.attempt c).log := by
  induction cs generalizing r with
  | nil => exact absurd hc List.not_mem_nil
  | cons d rest ih =>
      rw [List.map_cons, List.nodup_cons] at h
      rw [List.foldl_cons]
      rcases List.mem_cons.mp hc with rfl | hc
      · rw [files_foldl_of_not_mem h.1]
        exact Function.update_self _ _ _
      · exact ih h.2 hc _

/-- The copied lines are those of the logs of the commands that were executed. -/
theorem mem_copiedLines (h : cs.Sublist (plan.commands ++ plan.fallbackCommands)) {line : String} :
    line ∈ copiedLines plan (cs.foldl (runProcess world) {}) ↔ line ∈ logLines world cs := by
  have hnodup : (cs.map Command.log).Nodup := (h.map Command.log).nodup plan.distinct
  unfold copiedLines logLines
  rw [List.mem_flatMap, List.mem_flatMap]
  constructor
  · rintro ⟨c, -, hline⟩
    by_cases hlog : c.log ∈ cs.map Command.log
    · obtain ⟨d, hd, hsame⟩ := List.mem_map.mp hlog
      rw [← hsame, files_foldl hnodup hd, Option.getD_some] at hline
      exact ⟨d, hd, hline⟩
    · rw [files_foldl_of_not_mem hlog, Option.getD_none] at hline
      exact absurd hline List.not_mem_nil
  · rintro ⟨c, hc, hline⟩
    refine ⟨c, h.subset hc, ?_⟩
    rw [files_foldl hnodup hc, Option.getD_some]
    exact hline

theorem onlyCompileWarnings_iff {lines : List String} :
    onlyCompileWarnings lines = true ↔ (∃ line ∈ lines, isErrorLine line = true) ∧
      ∀ line ∈ lines, isErrorLine line = true → mentions "ORA-39082" line = true := by
  have hsome : (errorLines lines).isEmpty = false ↔ ∃ line ∈ lines, isErrorLine line = true := by
    rw [List.isEmpty_eq_false_iff_exists_mem]
    simp only [errorLines, List.mem_filter]
  unfold onlyCompileWarnings
  rw [Bool.and_eq_true, Bool.not_eq_true', hsome, List.all_eq_true]
  simp only [errorLines, List.mem_filter, and_imp]

/-- Only the lines matter, not their order. -/
theorem onlyCompileWarnings_congr {l l' : List String} (h : ∀ line, line ∈ l ↔ line ∈ l') :
    onlyCompileWarnings l = onlyCompileWarnings l' := by
  rw [Bool.eq_iff_iff, onlyCompileWarnings_iff, onlyCompileWarnings_iff]
  simp only [h]

theorem selectsNoObjects_congr {l l' : List String} (h : ∀ line, line ∈ l ↔ line ∈ l') :
    selectsNoObjects l = selectsNoObjects l' := by
  rw [Bool.eq_iff_iff]
  simp only [selectsNoObjects, Bool.and_eq_true, List.any_eq_true, h]

/-! ### The run of the plan -/

theorem mergeRepair_ok {status : ImportStatus} :
    (∃ status', mergeRepair world status = .ok status') ↔ Repairs world := by
  unfold mergeRepair Repairs
  cases world.repair with
  | error message =>
      constructor
      · rintro ⟨_, h⟩
        cases h
      · rintro ⟨_, h⟩
        cases h
  | ok warns => exact ⟨fun _ => ⟨warns, rfl⟩, fun _ => ⟨_, rfl⟩⟩

/-- An abandoned plan has one command, which selects no objects. -/
theorem Abandoned.single (h : Abandoned world plan) :
    ∃ c, plan.commands = [c] ∧ (world.attempt c).exitCode ≠ 0 ∧
      selectsNoObjects (world.attempt c).log = true := by
  obtain ⟨c, hc⟩ := plan.single h.1
  obtain ⟨d, hd, hfails, hselects⟩ := h.2
  rw [hc, List.mem_singleton] at hd
  subst hd
  exact ⟨d, hc, hfails, hselects⟩

theorem due_of_abandoned (h : Abandoned world plan) :
    due world plan = plan.fallbackCommands ∧ earlier world plan = plan.commands :=
  ⟨if_pos h, if_pos h⟩

theorem due_of_not_abandoned (h : ¬ Abandoned world plan) :
    due world plan = plan.commands ∧ earlier world plan = [] :=
  ⟨if_neg h, if_neg h⟩

/-- The run behind an abandoned attempt. -/
theorem runImport_abandoned (h : Abandoned world plan) : runImport world plan =
      match runCommands world plan.fallbackCommands (plan.commands.foldl (runProcess world) {}) with
      | (r', none) => (mergeRepair world .imported, r')
      | (r', some _) =>
          if onlyCompileWarnings (copiedLines plan r') = true then
            (mergeRepair world .importedWithWarnings, r')
          else (.error "Import retry with FULL=Y failed", r') := by
  obtain ⟨c, hc, hfails, hselects⟩ := h.single
  have hfirst : firstFailure world plan.commands = some ([], c, []) := by
    rw [hc, firstFailure, if_pos hfails]
  have hne : plan.commands ≠ [] := by
    rw [hc]
    exact List.cons_ne_nil _ _
  have hcopied : selectsNoObjects (copiedLines plan (plan.commands.foldl (runProcess world) {})) = true := by
    rw [selectsNoObjects_congr fun _ => mem_copiedLines (List.sublist_append_left _ _), hc]
    unfold logLines
    rw [List.flatMap_singleton]
    exact hselects
  have hrun : runCommands world plan.commands {} = (plan.commands.foldl (runProcess world) {}, some c) := by
    rw [runCommands_some hfirst, hc]
    rfl
  unfold runImport
  rw [if_neg hne, hrun]
  exact if_pos ⟨h.1, hcopied⟩

/-- The run where nothing is abandoned and a command fails. -/
theorem runImport_failed (h : ¬ Abandoned world plan)
    (hfirst : firstFailure world plan.commands = some (before, f, after)) : runImport world plan =
      if onlyCompileWarnings (copiedLines plan ((before ++ [f]).foldl (runProcess world) {})) = true then
        (mergeRepair world .importedWithWarnings, (before ++ [f]).foldl (runProcess world) {})
      else (.error "Import command failed", (before ++ [f]).foldl (runProcess world) {}) := by
  obtain ⟨hcs, -, hfails⟩ := firstFailure_some hfirst
  have hne : plan.commands ≠ [] := by
    rw [hcs]
    exact List.append_ne_nil_of_right_ne_nil _ (List.cons_ne_nil _ _)
  have hnot : ¬ (plan.fallbackCommands ≠ [] ∧
      selectsNoObjects (copiedLines plan ((before ++ [f]).foldl (runProcess world) {})) = true) := by
    rintro ⟨hfallback, hselects⟩
    obtain ⟨c, hc⟩ := plan.single hfallback
    -- the one command of the plan has failed, and the copied log is its own
    have hone : before = [] ∧ f = c ∧ after = [] := by
      rw [hc] at hcs
      cases before with
      | nil =>
          obtain ⟨rfl, rfl⟩ := List.cons.inj hcs.symm
          exact ⟨rfl, rfl, rfl⟩
      | cons b rest => simp at hcs
    obtain ⟨rfl, rfl, rfl⟩ := hone
    have hsub : [f].Sublist (plan.commands ++ plan.fallbackCommands) := by
      rw [hc]
      exact List.sublist_append_left _ _
    rw [List.nil_append, selectsNoObjects_congr fun _ => mem_copiedLines hsub] at hselects
    unfold logLines at hselects
    rw [List.flatMap_singleton] at hselects
    exact h ⟨hfallback, f, by rw [hc]; exact List.mem_singleton_self f, hfails, hselects⟩
  unfold runImport
  rw [if_neg hne, runCommands_some hfirst]
  exact if_neg hnot

/-- No due command fails. -/
theorem run_of_none (hne : plan.commands ≠ []) (h : firstFailure world (due world plan) = none) :
    (Returns world plan ↔ Repairs world) ∧
      executed world plan = earlier world plan ++ due world plan := by
  by_cases habandoned : Abandoned world plan
  · obtain ⟨hdue, hearlier⟩ := due_of_abandoned habandoned
    rw [hdue] at h
    have hrun := runImport_abandoned habandoned
    rw [runCommands_none h] at hrun
    unfold Returns executed
    rw [hrun, hdue, hearlier, executed_foldl, executed_foldl]
    exact ⟨mergeRepair_ok, rfl⟩
  · obtain ⟨hdue, hearlier⟩ := due_of_not_abandoned habandoned
    rw [hdue] at h
    have hrun : runImport world plan =
        (mergeRepair world .imported, plan.commands.foldl (runProcess world) {}) := by
      unfold runImport
      rw [if_neg hne, runCommands_none h]
    unfold Returns executed
    rw [hrun, hdue, hearlier, executed_foldl]
    exact ⟨mergeRepair_ok, rfl⟩

theorem ite_ok_iff {p : Prop} [Decidable p] {status : ImportStatus} {message : String} {r : Run} :
    (∃ status', (if p then (mergeRepair world status, r) else (.error message, r)).1 = .ok status') ↔
      p ∧ Repairs world := by
  split
  · next hp =>
      rw [and_iff_right hp]
      exact mergeRepair_ok
  · next hp =>
      refine iff_of_false ?_ fun h => hp h.1
      rintro ⟨_, heq⟩
      cases heq

/-- A due command fails. -/
theorem run_of_some (h : firstFailure world (due world plan) = some (before, f, after)) : (Returns world plan ↔
      onlyCompileWarnings (logLines world (earlier world plan ++ before ++ [f])) = true ∧ Repairs world) ∧
      executed world plan = earlier world plan ++ before ++ [f] := by
  obtain ⟨hcs, -, -⟩ := firstFailure_some h
  have hsub : (before ++ [f]).Sublist (due world plan) := by
    rw [hcs]
    exact List.Sublist.append_left (List.singleton_sublist.mpr List.mem_cons_self) before
  by_cases habandoned : Abandoned world plan
  · obtain ⟨hdue, hearlier⟩ := due_of_abandoned habandoned
    rw [hdue] at h hsub
    have hall : (plan.commands ++ (before ++ [f])).Sublist (plan.commands ++ plan.fallbackCommands) :=
      List.Sublist.append_left hsub plan.commands
    have hrun := runImport_abandoned habandoned
    rw [runCommands_some h, ← List.foldl_append] at hrun
    simp only [onlyCompileWarnings_congr fun _ => mem_copiedLines hall] at hrun
    unfold Returns executed
    rw [hrun, hearlier, List.append_assoc]
    refine ⟨ite_ok_iff, ?_⟩
    split <;> exact executed_foldl _ _
  · obtain ⟨hdue, hearlier⟩ := due_of_not_abandoned habandoned
    rw [hdue] at h hsub
    have hall : (before ++ [f]).Sublist (plan.commands ++ plan.fallbackCommands) :=
      hsub.trans (List.sublist_append_left _ _)
    have hrun := runImport_failed habandoned h
    simp only [onlyCompileWarnings_congr fun _ => mem_copiedLines hall] at hrun
    unfold Returns executed
    rw [hrun, hearlier, List.nil_append]
    refine ⟨ite_ok_iff, ?_⟩
    split <;> exact executed_foldl _ _

/-! ### The theorem -/

/-- A due command is executed once. -/
theorem nodup_executed : (earlier world plan ++ due world plan).Nodup := by
  have hall : (plan.commands ++ plan.fallbackCommands).Nodup := plan.distinct.of_map _
  by_cases habandoned : Abandoned world plan
  · obtain ⟨hdue, hearlier⟩ := due_of_abandoned habandoned
    rw [hdue, hearlier]
    exact hall
  · obtain ⟨hdue, hearlier⟩ := due_of_not_abandoned habandoned
    rw [hdue, hearlier]
    exact hall.sublist (List.sublist_append_left _ _)

/-- Two cuts of a list: what stands behind the earlier one is before or at the later one. -/
theorem mem_of_cuts {α : Type*} {before : List α} {c next : α} {rest pre : List α} {f : α} {post : List α}
    (h : before ++ c :: next :: rest = pre ++ f :: post) (hf : f ∉ before ++ [c]) : next ∈ pre ++ [f] := by
  have hcut : (before ++ [c]) ++ next :: rest = pre ++ f :: post := by
    rw [List.append_assoc, List.singleton_append]
    exact h
  rcases List.append_eq_append_iff.mp hcut with ⟨mid, hpre, hrest⟩ | ⟨mid, hbefore, hpost⟩
  · cases mid with
    | nil =>
        obtain ⟨rfl, -⟩ := List.cons.inj hrest
        exact List.mem_append_right _ (List.mem_singleton_self _)
    | cons d mid =>
        obtain ⟨rfl, -⟩ := List.cons.inj hrest
        rw [hpre]
        exact List.mem_append_left _ (List.mem_append_right _ List.mem_cons_self)
  · cases mid with
    | nil =>
        obtain ⟨rfl, -⟩ := List.cons.inj hpost
        exact List.mem_append_right _ (List.mem_singleton_self _)
    | cons d mid =>
        obtain ⟨rfl, -⟩ := List.cons.inj hpost
        rw [hbefore] at hf
        exact (hf (List.mem_append_right _ List.mem_cons_self)).elim

theorem fine_of_exit {c : Command} (h : (world.attempt c).exitCode = 0) : Fine world c := .inl h

/-- Where no due command fails, the repair decides. -/
theorem verdict_of_none (hne : plan.commands ≠ []) (h : firstFailure world (due world plan) = none) :
    Verdict world plan ↔ Repairs world := by
  obtain ⟨hreturns, hexecuted⟩ := run_of_none hne h
  have hfine : ∀ c ∈ due world plan, Fine world c := fun c hc => fine_of_exit (firstFailure_none h c hc)
  have hall : ∀ c ∈ due world plan, c ∈ executed world plan := by
    intro c hc
    rw [hexecuted]
    exact List.mem_append_right _ hc
  constructor
  · intro hverdict
    exact hreturns.mp (hverdict.returns_iff.mpr hfine)
  · intro hrepairs
    refine ⟨iff_of_true (hreturns.mpr hrepairs) hfine, fun _ => hall,
      fun before c next rest heq _ _ => hall next ?_⟩
    rw [heq]
    exact List.mem_append_right _ (List.mem_cons_of_mem _ List.mem_cons_self)

/-- Where a due command fails, its own log has to decide as all logs together do. -/
theorem verdict_of_some (h : firstFailure world (due world plan) = some (before, f, after)) :
    Verdict world plan ↔ (Fine world f → after = []) ∧
      (Fine world f ↔ onlyCompileWarnings (logLines world (earlier world plan ++ before ++ [f])) = true ∧
        Repairs world) := by
  obtain ⟨hreturns, hexecuted⟩ := run_of_some h
  obtain ⟨hdue, hbefore, -⟩ := firstFailure_some h
  have hfine : Fine world f → after = [] → ∀ c ∈ due world plan, Fine world c := by
    rintro hf rfl c hc
    rw [hdue] at hc
    rcases List.mem_append.mp hc with hc | hc
    · exact fine_of_exit (hbefore c hc)
    · rw [List.mem_singleton.mp hc]
      exact hf
  have hall : after = [] → ∀ c ∈ due world plan, c ∈ executed world plan := by
    rintro rfl c hc
    rw [hexecuted, List.append_assoc, ← hdue]
    exact List.mem_append_right _ hc
  have hmem : f ∈ due world plan := by
    rw [hdue]
    exact List.mem_append_right _ List.mem_cons_self
  rw [← hreturns]
  constructor
  · intro hverdict
    have hlast : Fine world f → after = [] := by
      intro hf
      cases after with
      | nil => rfl
      | cons next rest =>
          have hnext := hverdict.continues before f next rest hdue
            (fun b hb => fine_of_exit (hbefore b hb)) hf
          have hnodup : (earlier world plan ++ due world plan).Nodup := nodup_executed
          rw [hdue, ← List.append_assoc] at hnodup
          rw [hexecuted] at hnext
          have hnot : next ∉ earlier world plan ++ before ++ [f] := by
            rw [← List.singleton_append, ← List.append_assoc] at hnodup
            intro hin
            exact (List.nodup_append.mp hnodup).2.2 next hin next List.mem_cons_self rfl
          exact (hnot hnext).elim
    exact ⟨hlast, fun hf => hverdict.returns_iff.mpr (hfine hf (hlast hf)),
      fun hret => hverdict.returns_iff.mp hret f hmem⟩
  · rintro ⟨hlast, hiff⟩
    refine ⟨⟨fun hret => hfine (hiff.mpr hret) (hlast (hiff.mpr hret)), fun hdone => hiff.mp (hdone f hmem)⟩,
      fun hret => hall (hlast (hiff.mpr hret)), fun pre c next rest heq hpre hc => ?_⟩
    by_cases hf : Fine world f
    · refine hall (hlast hf) next ?_
      rw [heq]
      exact List.mem_append_right _ (List.mem_cons_of_mem _ List.mem_cons_self)
    · -- the run ends at `f`, and `next` stands before it or is it
      rw [hexecuted, List.append_assoc]
      refine List.mem_append_right _ (mem_of_cuts (heq.symm.trans hdue) fun hin => hf ?_)
      rcases List.mem_append.mp hin with hin | hin
      · exact hpre f hin
      · rw [List.mem_singleton.mp hin]
        exact hc

theorem verdict_iff (world : World) (plan : ImportPlan) : Verdict world plan ↔ HoldsWhen world plan := by
  unfold HoldsWhen
  by_cases hne : plan.commands = []
  · -- the run raises, and there is nothing to do
    have hnot : ¬ Abandoned world plan := by
      intro habandoned
      obtain ⟨c, hc, -⟩ := habandoned.single
      rw [hne] at hc
      cases hc
    refine iff_of_false (fun hverdict => ?_) fun h => h.1 hne
    have hreturns : Returns world plan := by
      refine hverdict.returns_iff.mpr fun c hc => ?_
      rw [(due_of_not_abandoned hnot).1, hne] at hc
      exact absurd hc List.not_mem_nil
    obtain ⟨status, hstatus⟩ := hreturns
    unfold runImport at hstatus
    rw [if_pos hne] at hstatus
    cases hstatus
  · rw [and_iff_right hne]
    cases h : firstFailure world (due world plan) with
    | none => exact verdict_of_none hne h
    | some failure =>
        obtain ⟨before, f, after⟩ := failure
        exact verdict_of_some h

/-- A legacy dump with two schemas, where the first one has a compilation warning and nothing else. -/
def warnsFirst : World where
  attempt := fun
    | .imp (some "HR") _ => { exitCode := 3, log := ["ORA-39082: Object type VIEW created with compilation warnings"] }
    | _ => { exitCode := 0, log := [] }
  repair := .ok false

theorem second_schema_skipped : ¬ ∀ (world : World) (plan : ImportPlan), Verdict world plan := by
  intro hall
  have hverdict := hall warnsFirst (buildPlan true ["HR", "CRM"] .legacyExp (by decide +kernel))
  have hnext := hverdict.continues [] (.imp (some "HR") (schemaLog "HR")) (.imp (some "CRM") (schemaLog "CRM")) []
    (by decide +kernel) (fun _ hb => absurd hb List.not_mem_nil) (.inr (by decide +kernel))
  exact absurd hnext (by decide +kernel)

end RecoveryService.OracleImport
