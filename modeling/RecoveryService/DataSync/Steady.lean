import RecoveryService.DataSync.Attempts

/-! # Invariants of the execution of a table

What a table keeps is proved once, for every family of properties closed under what the program does
to its state: count a call, set a key of the mapping, mark a write, send a request behind a mark.

`J a m` is the property during the attempt `a`, with `m` when it has marked a write; `F a` is the
property of an attempt that has marked nothing, and `U` the one before the first attempt. -/

namespace DataSync

open Program

/-- The keys the execution of a table sets, besides `_runtime_write_started`. -/
def tableKeys : List String :=
  ["_runtime_logs", "_runtime_stage", "_runtime_last_sql", "_runtime_attempt", "target_exists",
    "target_columns", "source_columns", "column_mappings", "last_success_at", "last_result"]

/-- The write flag of the mapping is set. -/
def World.writeStarted (w : World) : Prop := w.mapping.get "_runtime_write_started" = .bool true

structure Steady (U : World → Prop) (F : ℕ → World → Prop) (J : ℕ → Prop → World → Prop) : Prop where
  tick : ∀ {a m w}, J a m w → J a m { w with clock := w.clock + 1 }
  set : ∀ {a m w key value}, key ∈ tableKeys → J a m w →
    J a m { w with mapping := w.mapping.set key value }
  mark : ∀ {a m w}, J a m w → J a True { w with
    mapping := w.mapping.set "_runtime_write_started" (.bool true), marks := w.attempts :: w.marks }
  send : ∀ {a w request}, J a True w → J a True { w with writes := (w.attempts, request) :: w.writes }
  weaken : ∀ {a m w}, J a True w → J a m w
  freshTick : ∀ {a w}, F a w → F a { w with clock := w.clock + 1 }
  freshSet : ∀ {a w key value}, key ∈ "_runtime_write_started" :: tableKeys → F a w →
    F a { w with mapping := w.mapping.set key value }
  fresh : ∀ {a w}, F a w → J a False w
  unmarked : ∀ {a w}, J a False w → ¬ w.writeStarted → F a w
  attempt : ∀ {a w}, U w → F a { w with attempts := a }
  again : ∀ {a w}, F a w → U w

theorem getKey_keeps {I : World → Prop} (key : String) : Keeps I (getKey key) :=
  keeps_bind keeps_state fun _ => keeps_pure _

theorem logCount_keeps {I : World → Prop} : Keeps I logCount :=
  keeps_bind (getKey_keeps _) fun _ => keeps_pure _

variable {U : World → Prop} {F : ℕ → World → Prop} {J : ℕ → Prop → World → Prop}
  (S : Steady U F J) {a : ℕ} {m : Prop}

include S

/-! ### The primitives -/

theorem ask_steady {α : Type} (answer : ℕ → Except Raised α) : Keeps (J a m) (ask answer) := by
  constructor
  intro w hw
  unfold ask
  cases answer w.clock with
  | ok v | error exc => exact S.tick hw

theorem setKey_steady {key : String} (value : Json) (h : key ∈ tableKeys) : Keeps (J a m) (setKey key value) :=
  keeps_update fun _ hw => S.set h hw

theorem setStage_steady (stage : String) : Keeps (J a m) (setStage stage) :=
  setKey_steady S _ (by decide)

theorem markRuntimeSql_steady (stage sql : String) : Keeps (J a m) (markRuntimeSql stage sql) :=
  keeps_bind (setStage_steady S stage) fun _ => setKey_steady S _ (by decide)

/-- The mark is set, in the mapping and in the record. -/
theorem markWriteStarted_steady (stage sql : String) :
    Spec (J a m) (markWriteStarted stage sql) (fun _ => J a True) (fun _ => J a m) := by
  unfold markWriteStarted
  apply spec_bind (markRuntimeSql_steady S stage sql)
  intro _
  constructor
  exact fun w hw => S.mark hw

/-- What follows a mark. -/
theorem marked_bind {α : Type} {stage sql : String} {x : Unit → Table α}
    (h : Keeps (J a True) (x ())) : Keeps (J a m) (markWriteStarted stage sql >>= x) := by
  apply spec_bind (markWriteStarted_steady S stage sql)
  intro _
  exact h.mono (fun _ h => h) (fun _ _ h => S.weaken h) (fun _ _ h => S.weaken h)

theorem sendWrite_steady {α : Type} (request : Write) (answer : ℕ → Except Raised α) :
    Keeps (J a True) (sendWrite request answer) :=
  keeps_bind (keeps_update fun _ hw => S.send hw) fun _ => ask_steady S answer

variable (py : Python) (dorisType : Json → String) (env : Env) (engine : Engine) (config : Dict)
  (nowText : String)

theorem appendLog_steady (log : Json) : Keeps (J a m) (appendLog log) :=
  keeps_bind (getKey_keeps _) fun _ => setKey_steady S _ (by decide)

theorem addLog_steady (log : Json) : Keeps (J a m) (addLog env log) :=
  keeps_bind (appendLog_steady S log) fun _ => ask_steady S env.emit

theorem emitRuntimeLogs_steady (logStart : ℕ) : Keeps (J a m) (emitRuntimeLogs env logStart) :=
  keeps_bind (getKey_keeps _) fun _ => keeps_forM fun _ _ => ask_steady S env.emit

/-! ### The steps of a table -/

theorem createTargetTable_steady (database table : String) (sourceColumns : List Json) :
    Keeps (J a m) (createTargetTable py dorisType env database table sourceColumns) := by
  cases sourceColumns with
  | nil => exact keeps_raise _
  | cons first rest =>
      simp only [createTargetTable]
      apply keeps_bind (keeps_lift _)
      intro columns
      apply keeps_bind (keeps_lift _)
      intro firstCol
      apply marked_bind S
      apply keeps_bind (ask_steady S _)
      intro _
      apply keeps_bind (sendWrite_steady S _ _)
      exact fun _ => keeps_pure _

theorem alignLoop_steady (database table : String) (sourceColumns : List Json)
    (names : List String) (targetColumns : List Json) (added : List String) (m : Prop) : Keeps (J a m)
      (alignLoop py dorisType env database table sourceColumns names targetColumns added) := by
  induction sourceColumns generalizing names targetColumns added m with
  | nil => exact keeps_pure _
  | cons column rest ih =>
      rw [alignLoop]
      split
      · exact ih names targetColumns added m
      · apply keeps_bind (keeps_lift _)
        intro targetName
        apply keeps_bind (appendLog_steady S _)
        intro _
        apply marked_bind S
        apply keeps_bind (ask_steady S _)
        intro _
        apply keeps_bind (sendWrite_steady S _ _)
        exact fun _ => ih _ _ _ _

theorem createMissingTarget_steady (args : TableArgs) :
    Keeps (J a m) (createMissingTarget py dorisType env args) := by
  unfold createMissingTarget
  apply keeps_bind keeps_state
  intro w
  apply keeps_ite (keeps_raise _)
  apply keeps_bind (setStage_steady S _)
  intro _
  apply keeps_bind (keeps_bind (getKey_keeps _) fun _ => keeps_ite (keeps_pure _) (ask_steady S _))
  intro sourceColumns
  apply keeps_bind (setStage_steady S _)
  intro _
  apply keeps_bind (createTargetTable_steady S py dorisType env _ _ sourceColumns)
  intro sql
  apply keeps_bind (addLog_steady S env _)
  intro _
  apply keeps_bind (setKey_steady S _ (by decide))
  intro _
  apply keeps_bind (keeps_lift _)
  exact fun _ => setKey_steady S _ (by decide)

theorem alignSchema_steady (args : TableArgs) : Keeps (J a m) (alignSchema py dorisType env args) := by
  unfold alignSchema
  apply keeps_bind (setStage_steady S _)
  intro _
  apply keeps_bind (ask_steady S _)
  intro sourceColumns
  apply keeps_bind (setStage_steady S _)
  intro _
  apply keeps_bind (ask_steady S _)
  intro targetColumns
  apply keeps_bind logCount_keeps
  intro logStart
  apply keeps_bind (setStage_steady S _)
  intro _
  apply keeps_bind (alignLoop_steady S py dorisType env _ _ _ _ _ _ _)
  intro aligned
  apply keeps_bind (emitRuntimeLogs_steady S env _)
  intro _
  apply keeps_bind (setKey_steady S _ (by decide))
  intro _
  apply keeps_bind (setKey_steady S _ (by decide))
  intro _
  apply keeps_bind keeps_state
  intro w
  apply keeps_bind (keeps_lift _)
  intro columnMappings
  apply keeps_bind (setKey_steady S _ (by decide))
  exact fun _ => keeps_pure _

theorem truncateTarget_steady (args : TableArgs) : Keeps (J a m) (truncateTarget env args) := by
  unfold truncateTarget
  apply keeps_bind (addLog_steady S env _)
  intro _
  apply marked_bind S
  apply keeps_bind (sendWrite_steady S _ _)
  exact fun _ => keeps_pure _

theorem executeInsertSelectTable_steady (args : TableArgs) (targetColumns selectItems : List String) :
    Keeps (J a m) (executeInsertSelectTable env args targetColumns selectItems) := by
  unfold executeInsertSelectTable
  apply keeps_bind (appendLog_steady S _)
  intro _
  apply marked_bind S
  apply keeps_bind (ask_steady S _)
  intro _
  apply keeps_bind (sendWrite_steady S _ _)
  exact fun _ => keeps_pure _

theorem loadBatches_steady (args : TableArgs) (batches : List (List Json)) (done : Loaded)
    (m : Prop) : Keeps (J a m) (loadBatches py env args batches done) := by
  induction batches generalizing done m with
  | nil => exact keeps_pure _
  | cons rows rest ih =>
      cases rows with
      | nil => exact keeps_pure _
      | cons row rows =>
          unfold loadBatches
          apply keeps_bind (ask_steady S _)
          intro size
          apply keeps_bind (addLog_steady S env _)
          intro _
          apply marked_bind S
          apply keeps_bind (sendWrite_steady S _ _)
          intro result
          apply keeps_bind (keeps_lift _)
          intro n
          apply keeps_bind (addLog_steady S env _)
          exact fun _ => ih _ _

theorem streamTable_steady (args : TableArgs) (targetColumns selectItems : List String) :
    Keeps (J a m) (streamTable py env args engine targetColumns selectItems) := by
  unfold streamTable
  apply keeps_bind (markRuntimeSql_steady S _ _)
  intro _
  apply keeps_bind (addLog_steady S env _)
  intro _
  apply keeps_bind (keeps_onlyIf (ask_steady S _))
  intro _
  apply keeps_bind (ask_steady S _)
  intro cursor
  apply keeps_bind (loadBatches_steady S py env args _ _ _)
  intro loaded
  cases cursor.broken with
  | some exc => exact keeps_raise exc
  | none => exact keeps_pure loaded

theorem writeRows_steady (args : TableArgs) (targetColumns selectItems : List String) :
    Keeps (J a m) (writeRows py env args engine targetColumns selectItems) := by
  unfold writeRows
  apply keeps_ite
  · apply keeps_bind logCount_keeps
    intro logStart
    apply keeps_bind (setStage_steady S _)
    intro _
    apply keeps_bind (executeInsertSelectTable_steady S env args targetColumns selectItems)
    intro loaded
    apply keeps_bind (emitRuntimeLogs_steady S env _)
    exact fun _ => keeps_pure _
  · exact streamTable_steady S py env engine args targetColumns selectItems

theorem logPrepared_steady (args : TableArgs) : Keeps (J a m) (logPrepared py env engine config args) := by
  unfold logPrepared
  apply keeps_bind (getKey_keeps _)
  intro attempt
  apply keeps_bind (keeps_lift _)
  intro n
  apply keeps_bind (addLog_steady S env _)
  intro _
  apply keeps_bind (addLog_steady S env _)
  exact fun _ => keeps_onlyIf (addLog_steady S env _)

/-! ### Before the first mark -/

theorem ask_fresh {α : Type} (answer : ℕ → Except Raised α) : Keeps (F a) (ask answer) := by
  constructor
  intro w hw
  unfold ask
  cases answer w.clock with
  | ok v | error exc => exact S.freshTick hw

theorem setKey_fresh {key : String} (value : Json) (h : key ∈ "_runtime_write_started" :: tableKeys) :
    Keeps (F a) (setKey key value) :=
  keeps_update fun _ hw => S.freshSet h hw

theorem appendLog_fresh (log : Json) : Keeps (F a) (appendLog log) :=
  keeps_bind (getKey_keeps _) fun _ => setKey_fresh S _ (by decide)

theorem addLog_fresh (log : Json) : Keeps (F a) (addLog env log) :=
  keeps_bind (appendLog_fresh S log) fun _ => ask_fresh S env.emit

/-- What the attempt does before its first mark. -/
theorem fresh_bind {α β : Type} {x : Table α} {f : α → Table β} {R : β → World → Prop}
    (hx : Keeps (F a) x) (hf : ∀ v, Spec (F a) (f v) R (fun _ => J a False)) :
    Spec (F a) (x >>= f) R (fun _ => J a False) :=
  spec_bind (hx.mono (fun _ h => h) (fun _ _ h => h) (fun _ _ h => S.fresh h)) hf

/-- The rest of the attempt. -/
theorem fresh_rest {α : Type} {x : Table α} (hx : Keeps (J a False) x) :
    Spec (F a) x (fun _ => J a False) (fun _ => J a False) :=
  hx.mono (fun _ h => S.fresh h) (fun _ _ h => h) (fun _ _ h => h)

theorem executeOneTable_steady : Spec (F a) (executeOneTable py dorisType env engine config)
      (fun _ => J a False) (fun _ => J a False) := by
  unfold executeOneTable
  apply fresh_bind S (getKey_keeps _)
  intro logs
  apply fresh_bind S (setKey_fresh S _ (by decide))
  intro _
  apply fresh_bind S (setKey_fresh S _ (by decide))
  intro _
  apply fresh_bind S (setKey_fresh S _ (by decide))
  intro _
  apply fresh_rest S
  apply keeps_bind (setKey_steady S _ (by decide))
  intro _
  apply keeps_bind keeps_state
  intro w
  apply keeps_bind (keeps_lift _)
  intro args
  apply keeps_bind (logPrepared_steady S py env engine config args)
  intro _
  apply keeps_bind (setStage_steady S _)
  intro _
  apply keeps_bind (keeps_bind (ask_steady S _) fun _ => keeps_pure _)
  intro targetExists
  apply keeps_bind (keeps_onlyIf (createMissingTarget_steady S py dorisType env args))
  intro _
  apply keeps_bind (keeps_ite (alignSchema_steady S py dorisType env args) (keeps_pure _))
  intro added
  apply keeps_bind (setStage_steady S _)
  intro _
  apply keeps_bind keeps_state
  intro w
  apply keeps_bind (keeps_lift _)
  intro select
  apply keeps_ite (keeps_raise _)
  apply keeps_bind (keeps_onlyIf (truncateTarget_steady S env args))
  intro _
  apply keeps_bind (writeRows_steady S py env engine args _ _)
  intro loaded
  apply keeps_bind (addLog_steady S env _)
  intro _
  exact keeps_bind keeps_state fun _ => keeps_pure _

/-! ### One attempt -/

theorem closing_steady {α : Type} {body : Table α} {P : World → Prop}
    (h : Spec P body (fun _ => J a False) (fun _ => J a False)) :
    Spec P (closing env body) (fun _ => J a False) (fun _ => J a False) := by
  constructor
  intro w hw
  have hend : J a False (body w).2 := by
    have hbody := h.ends w hw
    cases hr : body w with
    | mk r w' =>
        rw [hr] at hbody
        cases r with
        | ok v | error exc => exact hbody
  unfold closing
  cases env.close (body w).2.clock with
  | error exc => exact S.tick hend
  | ok _ =>
      cases hr : (body w).1 with
      | ok v | error exc => exact S.tick hend

theorem attemptTable_steady (attempt : ℕ) :
    Spec (F a) (attemptTable py dorisType env engine config nowText attempt)
      (fun _ => J a False) (fun _ => J a False) := by
  have hconnect : Spec (F a) (connectAndExecute py dorisType env engine config)
      (fun _ => J a False) (fun _ => J a False) := by
    unfold connectAndExecute
    apply fresh_bind S (setKey_fresh S _ (by decide))
    intro _
    apply fresh_bind S (ask_fresh S _)
    intro _
    apply fresh_bind S (setKey_fresh S _ (by decide))
    intro _
    apply fresh_bind S (ask_fresh S _)
    exact fun _ => executeOneTable_steady S py dorisType env engine config
  unfold attemptTable
  apply spec_bind (closing_steady S env hconnect)
  intro result
  apply keeps_bind (setKey_steady S _ (by decide))
  intro _
  apply keeps_bind (setKey_steady S _ (by decide))
  intro _
  apply keeps_bind (ask_steady S _)
  exact fun _ => keeps_pure _

omit S in
theorem ended_failed {exc : Raised} {failureType : String} {stopRemaining : Bool} :
    Spec (J a False) (pure (.failed exc failureType stopRemaining) : Table AttemptEnd)
      (fun ended w => J a False w ∧ (ended = .again → F a w)) (fun _ => J a False) :=
  spec_pure fun _ hw => ⟨hw, nofun⟩

theorem recoverAndDecide_marked (attempt maxAttempts : ℕ) (exc : Raised) (stage : String) :
    Spec (J a False) (recoverAndDecide env attempt maxAttempts exc stage true)
      (fun ended w => J a False w ∧ (ended = .again → F a w)) (fun _ => J a False) := by
  unfold recoverAndDecide
  apply spec_bind (addLog_steady S env _)
  intro _
  apply spec_bind (ask_steady S _)
  intro answer
  apply spec_bind (keeps_forM fun _ _ => appendLog_steady S _)
  intro _
  split
  · exact ended_failed
  · exact ended_failed

theorem recoverAndDecide_fresh (attempt maxAttempts : ℕ) (exc : Raised) (stage : String) :
    Spec (F a) (recoverAndDecide env attempt maxAttempts exc stage false)
      (fun ended w => J a False w ∧ (ended = .again → F a w)) (fun _ => J a False) := by
  have hfailed : ∀ stop, Spec (F a) (pure (.failed exc "connection" stop) : Table AttemptEnd)
      (fun ended w => J a False w ∧ (ended = .again → F a w)) (fun _ => J a False) :=
    fun _ => spec_pure fun _ hw => ⟨S.fresh hw, nofun⟩
  unfold recoverAndDecide
  apply fresh_bind S (addLog_fresh S env _)
  intro _
  apply fresh_bind S (ask_fresh S _)
  intro answer
  apply fresh_bind S (keeps_forM fun _ _ => appendLog_fresh S _)
  intro _
  split
  · exact hfailed true
  · rw [if_neg (by decide)]
    split
    · apply fresh_bind S (addLog_fresh S env _)
      exact fun _ => spec_pure fun _ hw => ⟨S.fresh hw, fun _ => hw⟩
    · exact hfailed false

/-- The `except` clause tries again only where nothing was marked: the mark would show. -/
theorem handleFailure_steady (attempt maxAttempts : ℕ) (failureType : String) (exc : Raised) :
    Spec (J a False) (handleFailure py env attempt maxAttempts failureType exc)
      (fun ended w => J a False w ∧ (ended = .again → F a w)) (fun _ => J a False) := by
  unfold handleFailure
  split
  · exact ended_failed
  · apply spec_bind (Q := fun w w' => w = w' ∧ J a False w')
    · exact spec_state fun w hw => ⟨rfl, hw⟩
    · intro w
      cases hflag : (w.mapping.get "_runtime_write_started").truthy with
      | true =>
          exact (recoverAndDecide_marked S env attempt maxAttempts exc _).mono (fun _ h => h.2)
            (fun _ _ h => h) (fun _ _ h => h)
      | false =>
          refine (recoverAndDecide_fresh S env attempt maxAttempts exc _).mono ?_
            (fun _ _ h => h) (fun _ _ h => h)
          rintro _ ⟨rfl, hw⟩
          refine S.unmarked hw ?_
          intro hshows
          unfold World.writeStarted at hshows
          rw [hshows] at hflag
          cases hflag

theorem tryOnce_steady (maxAttempts : ℕ) (failureType : String) :
    Spec U (tryOnce py dorisType env engine config nowText a maxAttempts failureType)
      (fun ended w => J a False w ∧ (ended = .again → F a w)) (fun _ => J a False) := by
  unfold tryOnce
  apply spec_bind (Q := fun _ => F a)
  · exact spec_update fun w hw => S.attempt hw
  intro _
  apply fresh_bind S (ask_fresh S _)
  intro ready
  obtain ⟨generation, unavailable⟩ := ready
  simp only
  split
  · exact spec_pure fun _ hw => ⟨S.fresh hw, nofun⟩
  · apply fresh_bind S
    · exact keeps_bind (setKey_fresh S _ (by decide)) fun _ =>
        keeps_bind (setKey_fresh S _ (by decide)) fun _ =>
        keeps_bind (setKey_fresh S _ (by decide)) fun _ => setKey_fresh S _ (by decide)
    · intro _
      apply spec_attempt (E := fun _ => J a False)
      · apply spec_bind (attemptTable_steady S py dorisType env engine config nowText a)
        exact fun result => spec_pure fun _ hw => ⟨hw, nofun⟩
      · intro exc handler hhandler
        split at hhandler
        · cases hhandler
        · cases hhandler
          exact handleFailure_steady S py env a maxAttempts failureType exc
      · exact fun _ _ _ hw => hw

/-! ### The table -/

/-- The loop begins an attempt only when nothing was marked before. -/
theorem attemptLoop_steady {maxAttempts : ℕ} (remaining attempt : ℕ) (failureType : String)
    (hbound : attempt + remaining = maxAttempts + 1) (hrem : 0 < remaining) : Spec U
      (attemptLoop py dorisType env engine config nowText maxAttempts remaining attempt failureType)
      (fun _ w => ∃ a ≤ maxAttempts, J a False w) (fun _ w => ∃ a ≤ maxAttempts, J a False w) := by
  induction remaining generalizing attempt failureType with
  | zero => omega
  | succ remaining ih =>
      have hle : attempt ≤ maxAttempts := by omega
      unfold attemptLoop
      apply spec_bind
      · exact (tryOnce_steady S py dorisType env engine config nowText maxAttempts failureType).mono
          (fun _ hw => hw) (fun _ _ hw => hw) (fun _ _ hw => ⟨attempt, hle, hw⟩)
      · intro ended
        cases ended with
        | again =>
            cases remaining with
            | zero =>
                -- the last attempt is not tried again
                apply spec_raise
                exact fun w hw => ⟨attempt, hle, hw.1⟩
            | succ remaining =>
                refine (ih (attempt + 1) "connection" (by omega) (by omega)).mono ?_
                  (fun _ _ h => h) (fun _ _ h => h)
                exact fun w hw => S.again (hw.2 rfl)
        | returned result => exact spec_pure fun w hw => ⟨attempt, hle, hw.1⟩
        | failed exc failureType stopRemaining =>
            exact spec_pure fun w hw => ⟨attempt, hle, hw.1⟩

theorem reportFailure_steady (exc : Raised) (failureType : String) (stopRemaining : Bool) :
    Keeps (J a False) (reportFailure py env engine config exc failureType stopRemaining) := by
  unfold reportFailure
  apply keeps_bind keeps_state
  intro w
  apply keeps_bind (ask_steady S _)
  intro _
  apply keeps_bind (keeps_lift _)
  intro syncMethod
  apply keeps_bind (setKey_steady S _ (by decide))
  intro _
  apply keeps_bind (ask_steady S _)
  exact fun _ => keeps_pure _

/-- The attempts a configuration allows. -/
def allowedAttempts : ℕ :=
  match cleanConnectionRetryAttempts py (config.get "connection_retry_attempts") with
  | .ok n => n.toNat
  | .error _ => 0

omit S in
theorem allowedAttempts_eq {n : ℤ} (h : py.int (given (config.get "connection_retry_attempts") 3) = .ok n) :
    allowedAttempts py config = (max 1 (min 5 n)).toNat := by
  unfold allowedAttempts cleanConnectionRetryAttempts cleanRange
  rw [h]
  rfl

/-- A table ends with the property of one of its attempts. -/
theorem executeMapping_steady : Spec (F 0) (executeMapping py dorisType env engine config nowText)
      (fun _ w => ∃ a ≤ allowedAttempts py config, J a False w)
      (fun _ w => ∃ a ≤ allowedAttempts py config, J a False w) := by
  have hstart : ∀ n w, F 0 w → ∃ a ≤ n, J a False w := fun n _ hw => ⟨0, Nat.zero_le n, S.fresh hw⟩
  unfold executeMapping
  apply spec_bind ((ask_fresh S _).mono (fun _ h => h) (fun _ _ h => h)
    (fun _ w h => hstart _ w h))
  intro _
  apply spec_bind ((setKey_fresh S _ (by decide)).mono (fun _ h => h) (fun _ _ h => h)
    (fun _ w h => hstart _ w h))
  intro _
  cases hclean : cleanConnectionRetryAttempts py (config.get "connection_retry_attempts") with
  | error exc =>
      constructor
      exact fun w hw => hstart _ w hw
  | ok n =>
      have hallowed : allowedAttempts py config = n.toNat := by
        unfold allowedAttempts
        rw [hclean]
      have hpos : 1 ≤ n := by
        unfold cleanConnectionRetryAttempts cleanRange at hclean
        obtain ⟨k, -, hk⟩ := returns_bind hclean
        cases hk
        omega
      rw [hallowed]
      apply spec_bind (Q := fun k w => k = n ∧ F 0 w)
      · constructor
        exact fun w hw => ⟨rfl, hw⟩
      intro k
      apply spec_bind (Q := fun _ w => ∃ a ≤ n.toNat, J a False w)
      · constructor
        rintro w ⟨rfl, hw⟩
        exact (attemptLoop_steady S py dorisType env engine config nowText k.toNat 1 "execution"
          (by omega) (by omega)).ends w (S.again hw)
      intro ended
      constructor
      rintro w ⟨a, ha, hw⟩
      cases ended with
      | again | returned result => exact ⟨a, ha, hw⟩
      | failed exc failureType stopRemaining =>
          have hreport := (reportFailure_steady S py env engine config exc failureType
            stopRemaining (a := a)).ends w hw
          revert hreport
          simp only
          cases reportFailure py env engine config exc failureType stopRemaining w with
          | mk r w' =>
              cases r with
              | ok v | error exc' => exact fun h => ⟨a, ha, h⟩

end DataSync
