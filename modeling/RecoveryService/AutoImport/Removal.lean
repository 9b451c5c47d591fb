import RecoveryService.AutoImport.Tool

/-! # What the clean-up of an Oracle import removes

`cleanup_directory_object` and `cleanup_zero_copy_work_directory` of `tools/oracle_dmp_auto_import.py`.  That a
path is below the managed root is read off its text, which begins with the text of the root; `rm` goes where the
components of the path lead. -/

namespace RecoveryService.AutoImport

open Program

/-! ### Paths and files -/

/-- The names that lead from the root of the container to a file. -/
abbrev Path := List Text

def components (path : Text) : Path := (path.splitOn '/').filter (· ≠ [])

def walk (dir : Path) (name : Text) : Path :=
  if name = ['.'] then dir else if name = ['.', '.'] then dir.dropLast else dir ++ [name]

/-- A path without its `.` and `..`. -/
def resolve (path : Text) : Path := (components path).foldl walk []

/-- The files and directories of the container. -/
structure Files where
  paths : List Path
  closed : ∀ p ∈ paths, ∀ q, q <+: p → q ∈ paths

/-- `rm` takes no path whose last component is `.` or `..`. -/
def takes (path : Text) : Prop := ∀ name ∈ (components path).getLast?, name ≠ ['.'] ∧ name ≠ ['.', '.']

/-- A command removes a file: `rm -rf -- old/*`, which leaves the hidden entries, or `rm -rf -- work_dir`. -/
def Files.Removes (w : Files) : Command → Path → Prop
  | .removeUnder path, p =>
      p ∈ w.paths ∧ ∃ name : Text, name.head? ≠ some '.' ∧ resolve path ++ [name] <+: p
  | .removeDirectory path, p => p ∈ w.paths ∧ takes path ∧ resolve path <+: p
  | _, _ => False

/-- A command removes a file, or what the directory holds. -/
def Files.Clears (w : Files) (c : Command) (p : Path) : Prop :=
  w.Removes c p ∨ ∃ path, c = .removeUnder path ∧ p = resolve path ∧ ∃ q, w.Removes c q

/-- How far relative components lead up, and the names they then lead down. -/
def climb (names : Path) : ℕ × Path :=
  names.foldl (fun (levels, down) name =>
    if name = ['.'] then (levels, down)
    else if name = ['.', '.'] then if down = [] then (levels + 1, []) else (levels, down.dropLast)
    else (levels, down ++ [name])) (0, [])

theorem foldl_walk (dir names : Path) :
    names.foldl walk dir = dir.take (dir.length - (climb names).1) ++ (climb names).2 := by
  induction names using List.reverseRecOn with
  | nil => exact ((List.append_nil _).trans List.take_length).symm
  | append_singleton names name ih =>
      unfold climb at ih ⊢
      rw [List.foldl_concat, List.foldl_concat, ih]
      generalize List.foldl _ (0, []) names = r
      obtain ⟨levels, down⟩ := r
      unfold walk
      dsimp only
      by_cases hdot : name = ['.']
      · rw [if_pos hdot, if_pos hdot]
      by_cases hup : name = ['.', '.']
      · rw [if_neg hdot, if_pos hup, if_neg hdot, if_pos hup]
        by_cases hdown : down = []
        · rw [if_pos hdown, hdown, List.append_nil, List.append_nil, List.dropLast_eq_take, List.take_take,
            List.length_take]
          congr 1
          omega
        · rw [if_neg hdown]
          exact List.dropLast_append_of_ne_nil hdown
      · rw [if_neg hdot, if_neg hup, if_neg hdot, if_neg hup]
        exact List.append_assoc _ _ _

theorem resolve_append (root rest : Text) :
    resolve (root ++ '/' :: rest) = (components rest).foldl walk (resolve root) := by
  unfold resolve components
  rw [List.splitOn_append_cons_self, List.filter_append, List.foldl_append]

/-- A relative path leads up no further than it leads down again. -/
def Returns (root : Path) (rest : Text) : Prop :=
  root.drop (root.length - (climb (components rest)).1) <+: (climb (components rest)).2

theorem returns_iff (root rest : Text) :
    resolve root <+: resolve (root ++ '/' :: rest) ↔ Returns (resolve root) rest := by
  rw [resolve_append, foldl_walk]
  unfold Returns
  generalize (resolve root).length - (climb (components rest)).1 = kept
  nth_rewrite 1 [← List.take_append_drop kept (resolve root)]
  exact List.prefix_append_right_inj _

namespace Job

variable (j : Job)

/-! ### The commands of the clean-up -/

/-- The files behind a DIRECTORY at `old` are removed. -/
def replaces (old : Text) : Prop :=
  rstripSlash old ≠ rstripSlash j.containerImportDir ∧ j.managedRoot.isPrefixOf old = true

instance (old : Text) : Decidable (j.replaces old) := inferInstanceAs (Decidable (_ ∧ _))

/-- The commands of `cleanup_directory_object` for a DIRECTORY at `old`, where none fails. -/
def directoryScript (old : Text) : List Command :=
  .directoryPath .work ::
    if old = [] ∨ j.recreate = false then []
    else if j.replaces old then [.removeUnder old, .dropDirectory .work]
    else if rstripSlash old = rstripSlash j.containerImportDir then [.dropDirectory .work]
    else []

/-- The commands of `cleanup_zero_copy_work_directory` for a DIRECTORY at `old`, where none fails. -/
def workScript (old : Text) : List Command :=
  if j.removesWork then
    .directoryPath .work ::
      if old ≠ [] ∧ rstripSlash old = j.workDirectory then
        [.dropDirectory .work, .removeDirectory j.workDirectory]
      else [.removeDirectory j.workDirectory]
  else []

/-- Nobody asks the run to stop, and its commands succeed. -/
def Quiet : Prop := j.stopAt = none ∧ ∀ n, (j.answer n).code = 0

/-- The commands started since `l` are the first ones of the script, all of them in a quiet run. -/
def Part (script l : List Command) (s : State) : Prop :=
  ∃ part, part <+: script ∧ s.started = part.reverse ++ l ∧ (j.Quiet → part = script)

/-- A program whose commands are those of the script. -/
def Ends {α : Type} (script : List Command) (x : Program State Failure α) : Prop :=
  ∀ l, Spec (fun s => s.started = l) x (fun _ => j.Part script l) fun _ => j.Part script l

/-- A program that starts one command and reads `v` off its answer. -/
def Reads {α : Type} (c : Command) (x : Program State Failure α) (v : Answer → α) : Prop :=
  ∀ n l, Spec (fun s => s.calls = n ∧ s.started = l) x
    (fun a s => a = v (j.answer n) ∧ s.started = c :: l)
    fun _ s => ¬j.Quiet ∧ (s.started = l ∨ s.started = c :: l)

variable {j} {α β : Type} {c : Command} {script : List Command} {x : Program State Failure α} {v : Answer → α}

theorem reads_run (c : Command) : j.Reads c (j.runProcess c) id := by
  intro n l
  constructor
  rintro s ⟨rfl, rfl⟩
  have hloud {m : ℕ} (h : j.stopRequested m = true) : ¬j.Quiet := by
    rintro ⟨hnone, -⟩
    rw [stopRequested, hnone] at h
    cases h
  simp only [runProcess]
  by_cases hcheck : j.stopRequested (2 * s.calls) = true
  · rw [if_pos hcheck]
    exact ⟨hloud hcheck, .inl rfl⟩
  · rw [if_neg hcheck]
    by_cases hpoll : j.stopRequested (2 * s.calls + 1) = true
    · rw [if_pos hpoll]
      exact ⟨hloud hpoll, .inr rfl⟩
    · rw [if_neg hpoll]
      exact ⟨rfl, rfl⟩

variable {f : α → Program State Failure β}

/-- What is done with the answer starts nothing, and fails only where the command did. -/
theorem reads_bind {w : Answer → β} (hx : j.Reads c x v)
    (hf : ∀ a, f (v a) = pure (w a) ∨ a.code ≠ 0 ∧ ∃ e, f (v a) = raise e) : j.Reads c (x >>= f) w := by
  refine fun n l => spec_bind (hx n l) fun a => ⟨fun s hs => ?_⟩
  obtain ⟨rfl, hstarted⟩ := hs
  rcases hf (j.answer n) with hpure | ⟨hcode, e, hraise⟩
  · rw [hpure]
    exact ⟨rfl, hstarted⟩
  · rw [hraise]
    exact ⟨fun hquiet => hcode (hquiet.2 n), .inr hstarted⟩

theorem reads_checked (c : Command) (message : Answer → String) :
    j.Reads c (j.checked c message) fun _ => () := by
  refine reads_bind (reads_run c) fun a => ?_
  unfold onlyIf
  split_ifs with hcode
  · exact .inr ⟨hcode, _, rfl⟩
  · exact .inl rfl

theorem reads_sqlplus (c : Command) : j.Reads c (j.sqlplus c) Answer.lines := by
  refine reads_bind (reads_run c) fun a => ?_
  unfold onlyIf
  split_ifs with hcode
  · exact .inr ⟨hcode, _, rfl⟩
  · exact .inl rfl

theorem reads_sqlStatement (c : Command) : j.Reads c (j.sqlStatement c) fun _ => () :=
  reads_bind (reads_sqlplus c) fun _ => .inl rfl

theorem reads_directoryPath (object : DirectoryObject) :
    j.Reads (.directoryPath object) (j.directoryPath object) fun a => firstLine a.lines :=
  reads_bind (reads_sqlplus _) fun _ => .inl rfl

theorem part_nil {l : List Command} {s : State} (h : s.started = l) : j.Part [] l s :=
  ⟨[], List.prefix_rfl, h, fun _ => rfl⟩

/-- The first command of the script, and what is done with its answer. -/
theorem ends_read (n : ℕ) (l : List Command) (hx : j.Reads c x v) (hf : j.Ends script (f (v (j.answer n)))) :
    Spec (fun s => s.calls = n ∧ s.started = l) (x >>= f) (fun _ => j.Part (c :: script) l)
      fun _ => j.Part (c :: script) l := by
  have hcons {s : State} (h : j.Part script (c :: l) s) : j.Part (c :: script) l s := by
    obtain ⟨part, hpart, hstarted, hfull⟩ := h
    refine ⟨c :: part, List.cons_prefix_cons.mpr ⟨rfl, hpart⟩, ?_, fun hquiet => by rw [hfull hquiet]⟩
    rw [hstarted, List.reverse_cons, List.append_assoc, List.singleton_append]
  refine spec_bind ((hx n l).mono (fun _ hs => hs) (fun _ _ hs => hs) fun _ s hs => ?_) fun a => ⟨fun s hs => ?_⟩
  · obtain ⟨hloud, hstarted⟩ := hs
    rcases hstarted with hstarted | hstarted
    · exact ⟨[], List.nil_prefix, hstarted, fun hquiet => absurd hquiet hloud⟩
    · exact ⟨[c], List.cons_prefix_cons.mpr ⟨rfl, List.nil_prefix⟩, hstarted, fun hquiet => absurd hquiet hloud⟩
  · obtain ⟨rfl, hstarted⟩ := hs
    have h := (hf (c :: l)).ends s hstarted
    cases hr : f (v (j.answer n)) s with
    | mk r s' =>
        rw [hr] at h
        cases r with
        | ok b => exact hcons h
        | error e => exact hcons h

theorem ends_cons (hx : j.Reads c x v) (hf : ∀ a, j.Ends script (f a)) : j.Ends (c :: script) (x >>= f) :=
  fun l => ⟨fun s hs => (ends_read s.calls l hx (hf _)).ends s ⟨rfl, hs⟩⟩

theorem ends_pure (a : α) : j.Ends [] (pure a : Program State Failure α) :=
  fun _ => spec_pure fun _ hs => part_nil hs

theorem ends_raise (e : Failure) : j.Ends [] (raise e : Program State Failure α) :=
  fun _ => spec_raise fun _ hs => part_nil hs

theorem ends_sqlStatement (c : Command) : j.Ends [c] (j.sqlStatement c) :=
  ends_cons (reads_sqlplus c) fun _ => ends_pure ()

theorem directory_ends (n : ℕ) (l : List Command) :
    Spec (fun s => s.calls = n ∧ s.started = l) j.cleanupDirectoryObject
      (fun _ => j.Part (j.directoryScript (firstLine (j.answer n).lines)) l)
      fun _ => j.Part (j.directoryScript (firstLine (j.answer n).lines)) l := by
  refine ends_read n l (reads_directoryPath .work) ?_
  generalize firstLine (j.answer n).lines = old
  by_cases hold : old = []
  · rw [if_pos (.inl hold), hold]
    exact ends_pure ()
  by_cases hstop : j.recreate = false
  · rw [if_pos (.inr hstop), onlyIf, if_pos hold, replaceDirectory, onlyIf, if_pos hstop]
    exact ends_raise _
  rw [if_neg (not_or.mpr ⟨hold, hstop⟩), onlyIf, if_pos hold, replaceDirectory, onlyIf, if_neg hstop]
  change j.Ends _ (if j.replaces old then _ else _)
  by_cases hreplaces : j.replaces old
  · rw [if_pos hreplaces, if_pos hreplaces]
    exact ends_cons (reads_checked _ _) fun _ => ends_sqlStatement _
  rw [if_neg hreplaces, if_neg hreplaces]
  by_cases hown : rstripSlash old = rstripSlash j.containerImportDir
  · rw [if_pos hown, if_pos hown]
    exact ends_sqlStatement _
  · rw [if_neg hown, if_neg hown]
    exact ends_raise _

theorem work_ends (n : ℕ) (l : List Command) :
    Spec (fun s => s.calls = n ∧ s.started = l) j.cleanupZeroCopyWorkDirectory
      (fun _ => j.Part (j.workScript (firstLine (j.answer n).lines)) l)
      fun _ => j.Part (j.workScript (firstLine (j.answer n).lines)) l := by
  unfold cleanupZeroCopyWorkDirectory onlyIf workScript
  by_cases hremoves : j.removesWork
  · rw [if_pos hremoves, if_pos hremoves]
    refine spec_attempt (ends_read n l (reads_directoryPath .work) ?_) (fun e handler hh => ?_) fun _ _ _ hs => hs
    · generalize firstLine (j.answer n).lines = old
      have hremove : j.Ends [.removeDirectory j.workDirectory]
          (j.runProcess (.removeDirectory j.workDirectory) >>= fun _ => pure ()) :=
        ends_cons (reads_run _) fun _ => ends_pure ()
      split_ifs with hdrop
      · exact ends_cons (reads_sqlStatement _) fun _ => hremove
      · exact hremove
    · rw [← Option.some.inj hh]
      exact spec_pure fun _ hs => hs
  · rw [if_neg hremoves, if_neg hremoves]
    exact spec_pure fun _ hs => part_nil hs.2

/-! ### What is cleared -/

variable (j)

/-- The managed root, the shared dump directory, and the work directories of the other runs that hold their lock. -/
def Guarded (locked : List Text) (p : Path) : Prop :=
  p = resolve j.managedRoot ∨ (j.zeroCopyDump ∧ p = resolve j.containerDumpDir) ∨
    ∃ run ∈ locked, run ≠ j.runId ∧ p = resolve { j with runId := run : Job }.containerImportDir

/-- The commands clear files of their own, and drop a DIRECTORY at `old` only with its files or where it is the
run's. -/
structure Careful (w : Files) (locked : List Text) (old : Text) (started : List Command) : Prop where
  clears : ∀ c ∈ started, ∀ p, w.Clears c p → resolve j.managedRoot <+: p ∧ ¬j.Guarded locked p
  drops : ∀ object, .dropDirectory object ∈ started →
    object = .work ∧ old ≠ [] ∧ (.removeUnder old ∈ started ∨ rstripSlash old = j.workDirectory)

/-- Both clean-ups are careful, whatever becomes of their commands, where the query of the DIRECTORY prints
`lines`. -/
def CleansUp (w : Files) (locked lines : List Text) : Prop :=
  ∀ answer stopAt (s : State), (answer s.calls).lines = lines →
    let run := { j with answer := answer, stopAt := stopAt : Job }
    let s := { s with started := [] }
    j.Careful w locked (firstLine lines) (run.cleanupDirectoryObject s).2.started ∧
      j.Careful w locked (firstLine lines) (run.cleanupZeroCopyWorkDirectory s).2.started

/-- The part of a path behind the text of the managed root. -/
def behindRoot (path : Text) : Text := path.drop j.managedRoot.length

/-- A path below the text of the root leads below the root, and to no guarded directory. -/
structure Spared (w : Files) (locked : List Text) (c : Command) (path : Text) : Prop where
  returns : Returns (resolve j.managedRoot) (j.behindRoot path)
  guarded : ∀ p, j.Guarded locked p → ¬w.Clears c p

/-- What the tool goes by is right: the path of a DIRECTORY that it replaces, and the run id of its own work
directory. -/
def Harmless (w : Files) (locked : List Text) (old : Text) : Prop :=
  (j.recreate = true → old ≠ [] → j.replaces old → (∃ p, w.Removes (.removeUnder old) p) →
    j.Spared w locked (.removeUnder old) old) ∧
  (j.removesWork → (∃ p, w.Removes (.removeDirectory j.workDirectory) p) →
    j.Spared w locked (.removeDirectory j.workDirectory) j.workDirectory)

variable {j} {w : Files} {locked : List Text} {path : Text} {started : List Command}

theorem inside_iff (hpath : j.managedRoot.isPrefixOf path = true) :
    resolve j.managedRoot <+: resolve path ↔ Returns (resolve j.managedRoot) (j.behindRoot path) := by
  obtain ⟨rest, rfl⟩ := List.isPrefixOf_iff_prefix.mp hpath
  have hroot : resolve j.managedRoot = resolve (rstripSlash j.containerDir) := resolve_append _ []
  rw [behindRoot, List.drop_left, hroot, ← returns_iff, managedRoot, List.append_assoc, List.singleton_append]

theorem removes_of_clears {p : Path} (h : w.Clears c p) : ∃ q, w.Removes c q := by
  rcases h with h | ⟨_, -, -, h⟩
  · exact ⟨p, h⟩
  · exact h

/-- Below the text of the root, a command is careful with what it clears exactly where the path is spared. -/
theorem spared_iff (hpath : j.managedRoot.isPrefixOf path = true) (hbelow : ∀ p, w.Clears c p → resolve path <+: p)
    (hself : (∃ p, w.Removes c p) → w.Clears c (resolve path)) :
    ((∃ p, w.Removes c p) → j.Spared w locked c path) ↔
      ∀ p, w.Clears c p → resolve j.managedRoot <+: p ∧ ¬j.Guarded locked p := by
  constructor
  · intro h p hp
    have hspared := h (removes_of_clears hp)
    exact ⟨((inside_iff hpath).mpr hspared.returns).trans (hbelow p hp),
      fun hguarded => hspared.guarded p hguarded hp⟩
  · intro h hremoves
    exact ⟨(inside_iff hpath).mp (h _ (hself hremoves)).1, fun p hguarded hp => (h p hp).2 hguarded⟩

theorem spared_under_iff (hpath : j.managedRoot.isPrefixOf path = true) :
    ((∃ p, w.Removes (.removeUnder path) p) → j.Spared w locked (.removeUnder path) path) ↔
      ∀ p, w.Clears (.removeUnder path) p → resolve j.managedRoot <+: p ∧ ¬j.Guarded locked p := by
  refine spared_iff hpath (fun p hp => ?_) fun h => .inr ⟨path, rfl, rfl, h⟩
  rcases hp with ⟨-, name, -, hp⟩ | ⟨_, heq, rfl, -⟩
  · exact (List.prefix_append _ _).trans hp
  · cases heq
    exact List.prefix_rfl

theorem spared_directory_iff (hpath : j.managedRoot.isPrefixOf path = true) :
    ((∃ p, w.Removes (.removeDirectory path) p) → j.Spared w locked (.removeDirectory path) path) ↔
      ∀ p, w.Clears (.removeDirectory path) p → resolve j.managedRoot <+: p ∧ ¬j.Guarded locked p := by
  refine spared_iff hpath (fun p hp => ?_) ?_
  · rcases hp with ⟨-, -, hp⟩ | ⟨_, heq, -⟩
    · exact hp
    · cases heq
  · rintro ⟨p, hmem, htakes, hp⟩
    exact .inl ⟨w.closed p hmem _ hp, htakes, List.prefix_rfl⟩

/-! ### Careful scripts -/

theorem clears_directoryPath (p : Path) : ¬w.Clears (.directoryPath .work) p := by
  rintro (h | ⟨_, heq, -⟩)
  · exact h
  · cases heq

theorem clears_dropDirectory (p : Path) : ¬w.Clears (.dropDirectory .work) p := by
  rintro (h | ⟨_, heq, -⟩)
  · exact h
  · cases heq

theorem directory_careful {old : Text} (h : j.Harmless w locked old) {part : List Command}
    (hpart : part <+: j.directoryScript old) : j.Careful w locked old part := by
  unfold directoryScript at hpart
  constructor
  · intro c hc p hp
    have hmem := hpart.subset hc
    split_ifs at hmem with hnone hreplaces hown
    · rw [List.mem_singleton.mp hmem] at hp
      exact absurd hp (clears_directoryPath p)
    · rcases hmem with _ | ⟨_, _ | ⟨_, _ | ⟨_, hmem⟩⟩⟩
      · exact absurd hp (clears_directoryPath p)
      · rw [not_or, Bool.not_eq_false] at hnone
        exact (spared_under_iff hreplaces.2).mp (h.1 hnone.2 hnone.1 hreplaces) p hp
      · exact absurd hp (clears_dropDirectory p)
      · cases hmem
    · rcases hmem with _ | ⟨_, _ | ⟨_, hmem⟩⟩
      · exact absurd hp (clears_directoryPath p)
      · exact absurd hp (clears_dropDirectory p)
      · cases hmem
    · rw [List.mem_singleton.mp hmem] at hp
      exact absurd hp (clears_directoryPath p)
  · intro object hdrop
    have hmem := hpart.subset hdrop
    split_ifs at hmem hpart with hnone hreplaces hown
    · cases List.mem_singleton.mp hmem
    · have hpart : part <+: [.directoryPath .work, .removeUnder old] ++ [.dropDirectory .work] := hpart
      rcases List.prefix_concat_iff.mp hpart with rfl | hpart
      · rcases hmem with _ | ⟨_, _ | ⟨_, _ | ⟨_, hmem⟩⟩⟩
        · exact ⟨rfl, (not_or.mp hnone).1, .inl (List.mem_cons_of_mem _ List.mem_cons_self)⟩
        · cases hmem
      · have hmem := hpart.subset hdrop
        rcases hmem with _ | ⟨_, _ | ⟨_, hmem⟩⟩
        cases hmem
    · rcases hmem with _ | ⟨_, _ | ⟨_, hmem⟩⟩
      · exact ⟨rfl, (not_or.mp hnone).1, .inr hown⟩
      · cases hmem
    · cases List.mem_singleton.mp hmem

theorem work_careful {old : Text} (h : j.Harmless w locked old) {part : List Command}
    (hpart : part <+: j.workScript old) : j.Careful w locked old part := by
  unfold workScript at hpart
  by_cases hremoves : j.removesWork
  swap
  · rw [if_neg hremoves] at hpart
    rw [List.prefix_nil.mp hpart]
    exact ⟨fun _ hc => absurd hc List.not_mem_nil, fun _ hc => absurd hc List.not_mem_nil⟩
  rw [if_pos hremoves] at hpart
  constructor
  · intro c hc p hp
    rcases List.mem_cons.mp (hpart.subset hc) with rfl | hmem
    · exact absurd hp (clears_directoryPath p)
    have hcase : c = .dropDirectory .work ∨ c = .removeDirectory j.workDirectory := by
      split_ifs at hmem
      · rwa [List.mem_cons, List.mem_singleton] at hmem
      · exact .inr (List.mem_singleton.mp hmem)
    rcases hcase with rfl | rfl
    · exact absurd hp (clears_dropDirectory p)
    · exact (spared_directory_iff hremoves.2.1).mp (h.2 hremoves) p hp
  · intro object hdrop
    rcases List.mem_cons.mp (hpart.subset hdrop) with heq | hmem
    · cases heq
    split_ifs at hmem with hown
    · rcases List.mem_cons.mp hmem with heq | hmem
      · exact ⟨Command.dropDirectory.inj heq, hown.1, .inr hown.2⟩
      · cases List.mem_singleton.mp hmem
    · cases List.mem_singleton.mp hmem

theorem part_of_ends {α : Type} {script : List Command} {x : Program State Failure α} {P : State → Prop} {s : State}
    (h : Spec P x (fun _ => j.Part script []) fun _ => j.Part script []) (hs : P s) : j.Part script [] (x s).2 := by
  have hend := h.ends s hs
  cases hr : x s with
  | mk r s' =>
      rw [hr] at hend
      cases r with
      | ok a => exact hend
      | error e => exact hend

variable {lines : List Text}

/-- A run in which nothing fails starts the whole script. -/
theorem quiet_starts {script : List Command} {t : State} (hquiet : j.Quiet) (ht : j.Part script [] t)
    (hc : c ∈ script) : c ∈ t.started := by
  obtain ⟨part, -, hstarted, hpart⟩ := ht
  rw [hstarted, List.append_nil, List.mem_reverse, hpart hquiet]
  exact hc

/-- What is promised of a run in which nothing fails. -/
theorem careful_of_cleansUp (h : j.CleansUp w locked lines) :
    (∀ c ∈ j.directoryScript (firstLine lines), ∀ p, w.Clears c p →
      resolve j.managedRoot <+: p ∧ ¬j.Guarded locked p) ∧
    ∀ c ∈ j.workScript (firstLine lines), ∀ p, w.Clears c p →
      resolve j.managedRoot <+: p ∧ ¬j.Guarded locked p := by
  let quiet : Job := { j with answer := fun _ => ⟨0, lines, true⟩, stopAt := none }
  let s : State := { container := ⟨none, false⟩, connect := [], importLogs := [], report := none }
  have hquiet : quiet.Quiet := ⟨rfl, fun _ => rfl⟩
  obtain ⟨hdirectory, hwork⟩ := h quiet.answer none s rfl
  exact ⟨fun c hc => hdirectory.clears c
      (quiet_starts hquiet (part_of_ends (directory_ends (j := quiet) 0 []) (s := s) ⟨rfl, rfl⟩) hc),
    fun c hc => hwork.clears c
      (quiet_starts hquiet (part_of_ends (work_ends (j := quiet) 0 []) (s := s) ⟨rfl, rfl⟩) hc)⟩

theorem mem_directoryScript {old : Text} (hrecreate : j.recreate = true) (hold : old ≠ []) (h : j.replaces old) :
    .removeUnder old ∈ j.directoryScript old := by
  unfold directoryScript
  rw [if_neg (not_or.mpr ⟨hold, (Bool.not_eq_false _).mpr hrecreate⟩), if_pos h]
  exact List.mem_cons_of_mem _ List.mem_cons_self

theorem mem_workScript (old : Text) (h : j.removesWork) :
    .removeDirectory j.workDirectory ∈ j.workScript old := by
  unfold workScript
  rw [if_pos h]
  split_ifs
  · exact List.mem_cons_of_mem _ (List.mem_cons_of_mem _ List.mem_cons_self)
  · exact List.mem_cons_of_mem _ List.mem_cons_self

/-- An import of the files in `/t/r`. -/
def replacingJob : Job where
  container := ['o', 'r', 'a']
  connect := []
  pdb := []
  containerDir := "/t".toList
  runId := ['r']
  directContainerDir := []
  directoryObject := ['W']
  dumpDirectoryObject := []
  targetDatafileDir := []
  jobName := ['J']
  recreate := true
  execute := true
  defaultTablespace := []
  exportLogMissingCount := 0
  sourceFiles := some [['x']]
  generatedDirectory := []
  parseMetadata _ := ([], [], [])
  validate _ := .ok ()
  buildPlan _ _ := .error ""
  busy := false
  stopAt := none
  answer _ := ⟨0, [], true⟩

def dataFiles : Files where
  paths := [[], [['d']], [['d'], ['f']]]
  closed p hp q hq :=
    have hinits : ∀ p ∈ ([[], [['d']], [['d'], ['f']]] : List Path), ∀ q ∈ p.inits,
      q ∈ ([[], [['d']], [['d'], ['f']]] : List Path) := by decide
    hinits p hp q ((List.mem_inits q p).mpr hq)

end Job

end RecoveryService.AutoImport
