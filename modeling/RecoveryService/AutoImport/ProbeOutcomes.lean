import RecoveryService.AutoImport.Tool

/-! # The outcomes of a probe

`probe_dump` as a function of what its commands give back.  The markers are searched in the output, the log and the
DDL of the dump together, so that the classification depends on the DDL, except where the exit codes and the other
texts settle it. -/

namespace RecoveryService.AutoImport

open Program

/-- The outcome of one `impdp`. -/
structure Attempt where
  code : ℤ
  output : Text
  sqlfile : Text
  log : Text

def Attempt.probed (a : Attempt) : Job.Probed :=
  ⟨a.code, a.output ++ ['\n'] ++ a.sqlfile ++ ['\n'] ++ a.log⟩

/-- The outcomes of the attempts, by their numbers, and of `imp` with its output and log. -/
structure Outcomes where
  impdp : ℕ → Attempt
  imp : ℤ × Text

/-- A result, the attempts it comes from and whether `imp` was started. -/
structure Tried where
  result : ProbeResult
  impdp : List Attempt
  imp : Bool := false

section

variable (j : Job) (imp : ℤ × Text)

/-- `imp` is asked where a failure says so. -/
def probeByFailure (failureCode : String) (tried : List Attempt) : Tried :=
  if failureCode = "metadata_not_selected" then
    ⟨{ dumpType := .datapump, failureCode := failureCode, attempts := tried.length }, tried, false⟩
  else if failureCode ≠ "legacy_exp" then
    ⟨{ dumpType := if failureCode ≠ "unknown_dump_type" then .probeFailed else .unknown
       failureCode := failureCode
       attempts := tried.length }, tried, false⟩
  else if imp.1 ≠ 0 then
    ⟨{ dumpType := .probeFailed, failureCode := "legacy_probe_failed", attempts := tried.length + 1 }, tried, true⟩
  else
    ⟨{ dumpType := .legacyExp
       schemas := (j.parseMetadata imp.2).1
       tablespaces := (j.parseMetadata imp.2).2.1
       datafiles := (j.parseMetadata imp.2).2.2
       attempts := tried.length + 1 }, tried, true⟩

/-- The attempt without `COMMENT`. -/
def probeRetry (retry : Attempt) (tried : List Attempt) : Tried :=
  if retry.probed.code = 0 ∧ Job.hasLegacyExpMarker retry.probed.combined = false then
    ⟨j.datapumpProbe retry.probed.combined ["COMMENT"] (tried.length + 1), tried ++ [retry], false⟩
  else probeByFailure j imp (Job.classifyProbeFailure retry.probed.combined) (tried ++ [retry])

/-- What follows the attempts so far, the last of which is `last`. -/
def probeSettle (retry : Attempt) (tried : List Attempt) (last : Attempt) (combined : Text) : Tried :=
  if last.probed.code = 0 ∧ Job.hasLegacyExpMarker combined = false then
    ⟨j.datapumpProbe combined [] tried.length, tried, false⟩
  else if Job.hasLegacyExpMarker combined = false ∧ Job.hasCommentCharsetLoss combined = true then
    probeRetry j imp retry tried
  else probeByFailure j imp last.probed.failureCode tried

def Outcomes.probe (w : Outcomes) : Tried :=
  let first := w.impdp 1
  let second := w.impdp 2
  if first.probed.failureCode = "directory_invalid" ∨ first.probed.failureCode = "sqlfile_invalid" then
    probeSettle j w.imp (w.impdp 3) [first, second] second
      (first.probed.combined ++ ['\n'] ++ second.probed.combined)
  else probeSettle j w.imp second [first] first first.probed.combined

end

/-- The same exit codes and logs, for a dump with other DDL. -/
def Outcomes.withDdl (w : Outcomes) (ddl : ℕ → Text) : Outcomes :=
  { w with impdp := fun n => { w.impdp n with sqlfile := ddl n } }

/-! ### The outcomes of a run -/

/-- What the program returns, if it does. -/
def Gives {α : Type} (x : Program State Failure α) (R : α → Prop) : Prop :=
  Spec (fun _ => True) x (fun a _ => R a) (fun _ _ => True)

section

variable {j : Job} {α β : Type}

theorem gives_any (x : Program State Failure α) : Gives x fun _ => True :=
  ⟨fun s _ => by cases h : x s with | mk r s' => cases r <;> exact trivial⟩

theorem gives_pure {a : α} {R : α → Prop} (h : R a) : Gives (pure a) R := spec_pure fun _ _ => h

theorem gives_bind {x : Program State Failure α} {f : α → Program State Failure β} {R : α → Prop} {Q : β → Prop}
    (hx : Gives x R) (hf : ∀ a, R a → Gives (f a) Q) : Gives (x >>= f) Q := by
  refine spec_bind hx fun a => ⟨fun s ha => ?_⟩
  exact (hf a ha).ends s trivial

theorem gives_probeAttempt (number : ℕ) (excludeComment : Bool) :
    Gives (j.probeAttempt number excludeComment) fun p => ∃ a : Attempt, p = a.probed :=
  gives_bind (gives_any _) fun _ _ => gives_bind (gives_any _) fun result _ => gives_bind (gives_any _) fun sql _ =>
    gives_bind (gives_any _) fun log _ => gives_bind (gives_any _) fun _ _ => gives_bind (gives_any _) fun _ _ =>
      gives_pure ⟨⟨result.code, joined result.lines, sql, log⟩, rfl⟩

theorem gives_byFailure (failureCode : String) (tried : List Attempt) :
    Gives (j.byFailure failureCode tried.length) fun r =>
      ∃ imp, r = (probeByFailure j imp failureCode tried).result := by
  unfold Job.byFailure probeByFailure
  by_cases hmetadata : failureCode = "metadata_not_selected"
  · rw [if_pos hmetadata]
    exact gives_pure ⟨(0, []), by rw [if_pos hmetadata]⟩
  · by_cases hlegacy : failureCode ≠ "legacy_exp"
    · rw [if_neg hmetadata, if_pos hlegacy]
      exact gives_pure ⟨(0, []), by rw [if_neg hmetadata, if_pos hlegacy]⟩
    · rw [if_neg hmetadata, if_neg hlegacy]
      refine gives_bind (gives_any _) fun result _ => gives_bind (gives_any _) fun log _ =>
        gives_bind (gives_any _) fun _ _ => ?_
      split_ifs with hcode
      · exact gives_pure ⟨(result.code, []), by rw [if_pos hcode]⟩
      · exact gives_pure ⟨(result.code, joined result.lines ++ ['\n'] ++ log), by rw [if_neg hcode]⟩

/-- Behind the first attempts the program does what the outcomes say. -/
theorem gives_settle (p : Job.Probing) (tried : List Attempt) (last : Attempt)
    (hp : p = ⟨last.probed, p.combined, last.probed.failureCode, tried.length⟩) :
    Gives (if p.probed.code = 0 ∧ Job.hasLegacyExpMarker p.combined = false then
        pure (j.datapumpProbe p.combined [] p.attempts)
      else if Job.hasLegacyExpMarker p.combined = false ∧ Job.hasCommentCharsetLoss p.combined = true then
        j.withoutComment p
      else j.byFailure p.failureCode p.attempts) fun r =>
      ∃ retry imp, r = (probeSettle j imp retry tried last p.combined).result := by
  rw [hp]
  unfold probeSettle
  dsimp only
  split_ifs with hok hcomment
  · exact gives_pure ⟨last, (0, []), rfl⟩
  · refine gives_bind (gives_probeAttempt _ _) ?_
    rintro _ ⟨retry, rfl⟩
    unfold probeRetry
    by_cases hretry : retry.probed.code = 0 ∧ Job.hasLegacyExpMarker retry.probed.combined = false
    · rw [if_pos hretry]
      exact gives_pure ⟨retry, (0, []), by rw [if_pos hretry]⟩
    · rw [if_neg hretry, ← List.length_singleton (a := retry), ← List.length_append]
      refine (gives_byFailure _ _).mono (fun _ h => h) ?_ fun _ _ h => h
      rintro _ _ ⟨imp, rfl⟩
      exact ⟨retry, imp, by rw [if_neg hretry]⟩
  · refine (gives_byFailure _ _).mono (fun _ h => h) ?_ fun _ _ h => h
    rintro _ _ ⟨imp, rfl⟩
    exact ⟨last, imp, rfl⟩

end

/-! ### The texts that are searched -/

def unresolvedUser : String := "docker_user_resolution_failed"

/-- The code of a failure after which the DIRECTORY is created anew. -/
def IsAgain (failureCode : String) : Prop := failureCode = "directory_invalid" ∨ failureCode = "sqlfile_invalid"

/-- The output and the log of an attempt, as they are searched without its DDL. -/
def Attempt.messages (a : Attempt) : Text := { a with sqlfile := [] : Attempt }.probed.combined

theorem infix_newline {m a b : Text} (hm : m ≠ []) (hline : '\n' ∉ m) :
    m <:+: a ++ '\n' :: b ↔ m <:+: a ∨ m <:+: b := by
  rw [List.infix_append_iff, List.infix_cons_iff]
  refine ⟨?_, fun h => h.imp id fun h => .inl (.inr h)⟩
  have hstart : ∀ part, part <+: '\n' :: b → (∀ c ∈ part, c ∈ m) → part = [] := by
    intro part hpart hmem
    cases part with
    | nil => rfl
    | cons c rest =>
        obtain ⟨rfl, -⟩ := List.cons_prefix_cons.mp hpart
        exact absurd (hmem _ List.mem_cons_self) hline
  rintro (h | (h | h) | ⟨front, rest, rfl, hfront, hrest⟩)
  · exact .inl h
  · exact absurd (hstart m h fun _ hc => hc) hm
  · exact .inr h
  · have hnil := hstart rest hrest fun c hc => List.mem_append_right front hc
    rw [hnil, List.append_nil]
    exact .inl hfront.isInfix

/-- A marker stands in the DDL, or in the other texts. -/
theorem occurs_combined {m : String} (hm : m.toList ≠ [] ∧ '\n' ∉ m.toList) {g : Text → Text}
    (happend : ∀ x y, g (x ++ y) = g x ++ g y) (hline : g ['\n'] = ['\n']) (a : Attempt) :
    occurs m (g a.probed.combined) = (occurs m (g a.messages) || occurs m (g a.sqlfile)) := by
  have hnil : g [] = [] := List.self_eq_append_right.mp (happend [] [])
  have hempty : ¬m.toList <:+: [] := fun h => hm.1 (List.infix_nil.mp h)
  have hparts : ∀ sql, m.toList <:+: g (a.output ++ ['\n'] ++ sql ++ ['\n'] ++ a.log) ↔
      m.toList <:+: g a.output ∨ m.toList <:+: g sql ∨ m.toList <:+: g a.log := by
    intro sql
    rw [happend, happend, happend, happend, hline, List.append_assoc, List.append_assoc, List.append_assoc,
      List.singleton_append, List.singleton_append, infix_newline hm.1 hm.2, infix_newline hm.1 hm.2]
  rw [Bool.eq_iff_iff, Bool.or_eq_true]
  unfold occurs
  rw [decide_eq_true_eq, decide_eq_true_eq, decide_eq_true_eq]
  change m.toList <:+: g (a.output ++ ['\n'] ++ a.sqlfile ++ ['\n'] ++ a.log) ↔
    m.toList <:+: g (a.output ++ ['\n'] ++ [] ++ ['\n'] ++ a.log) ∨ m.toList <:+: g a.sqlfile
  rw [hparts, hparts, hnil, or_iff_right hempty]
  tauto

theorem legacy_combined (a : Attempt) : Job.hasLegacyExpMarker a.probed.combined =
    (Job.hasLegacyExpMarker a.messages || Job.hasLegacyExpMarker a.sqlfile) := by
  unfold Job.hasLegacyExpMarker
  have hcode := occurs_combined (m := "ORA-39143") (g := id) (by decide +kernel) (fun _ _ => rfl) rfl a
  have hname := occurs_combined (m := "original export") (g := List.map Char.toLower) (by decide +kernel)
    (fun _ _ => List.map_append) rfl a
  dsimp only [id] at hcode
  rw [hcode, hname, Bool.or_assoc, Bool.or_assoc, Bool.or_left_comm (occurs _ a.sqlfile)]

/-- The two messages of an unknown user. -/
def userMessages (text : Text) : Bool × Bool :=
  (occurs "UNABLE TO FIND USER" (Text.upper text), occurs "NO MATCHING ENTRIES IN PASSWD FILE" (Text.upper text))

def directoryMessage (text : Text) : Bool :=
  occurs "ORA-39087" (Text.upper text) || occurs "ORA-39054" (Text.upper text)

theorem userMessages_combined (a : Attempt) : userMessages a.probed.combined =
    ((userMessages a.messages).1 || (userMessages a.sqlfile).1,
      (userMessages a.messages).2 || (userMessages a.sqlfile).2) :=
  Prod.ext (occurs_combined (by decide +kernel) Text.upper_append rfl a)
    (occurs_combined (by decide +kernel) Text.upper_append rfl a)

theorem directoryMessage_combined (a : Attempt) : directoryMessage a.probed.combined =
    (directoryMessage a.messages || directoryMessage a.sqlfile) := by
  have hinvalid := occurs_combined (m := "ORA-39087") (by decide +kernel) Text.upper_append rfl a
  have hsqlfile := occurs_combined (m := "ORA-39054") (by decide +kernel) Text.upper_append rfl a
  unfold directoryMessage
  rw [hinvalid, hsqlfile, Bool.or_assoc, Bool.or_assoc, Bool.or_left_comm (occurs _ (Text.upper a.sqlfile))]

theorem classify_unresolvedUser_iff (text : Text) :
    Job.classifyProbeFailure text = unresolvedUser ↔ userMessages text = (true, true) := by
  have hmessages : userMessages text = (true, true) ↔ (occurs "UNABLE TO FIND USER" (Text.upper text) &&
      occurs "NO MATCHING ENTRIES IN PASSWD FILE" (Text.upper text)) = true := by
    rw [userMessages, Prod.mk.injEq, Bool.and_eq_true]
  rw [hmessages]
  unfold Job.classifyProbeFailure unresolvedUser
  dsimp only
  split_ifs with h <;> simp [h]

theorem classify_isAgain_iff (text : Text) : IsAgain (Job.classifyProbeFailure text) ↔
    userMessages text ≠ (true, true) ∧ directoryMessage text = true := by
  rw [Ne, ← classify_unresolvedUser_iff]
  unfold Job.classifyProbeFailure directoryMessage IsAgain unresolvedUser
  dsimp only
  split_ifs <;> simp [*]

/-! ### The condition -/

/-- An attempt without `COMMENT` ends with an unknown user whatever its DDL is. -/
def Stuck (a : Attempt) : Prop :=
  Job.classifyProbeFailure a.messages = unresolvedUser ∧
    (a.code ≠ 0 ∨ Job.hasLegacyExpMarker a.messages = true)

/-- The exit codes and the messages settle the classification: an attempt that succeeds names the original export
itself, or the last attempt fails on an unknown user, and so would the one without `COMMENT`. -/
def Settled (w : Outcomes) : Prop :=
  (w.impdp 1).code = 0 ∧ Job.hasLegacyExpMarker (w.impdp 1).messages = true ∨
  (w.impdp 1).code ≠ 0 ∧ Job.classifyProbeFailure (w.impdp 1).messages = unresolvedUser ∧
    (Job.hasLegacyExpMarker (w.impdp 1).messages = true ∨ Stuck (w.impdp 2)) ∨
  (w.impdp 1).code ≠ 0 ∧ IsAgain (Job.classifyProbeFailure (w.impdp 1).messages) ∧
    ((w.impdp 2).code ≠ 0 ∧ Job.classifyProbeFailure (w.impdp 2).messages = unresolvedUser) ∧
    (Job.hasLegacyExpMarker (w.impdp 1).messages = true ∨ Job.hasLegacyExpMarker (w.impdp 2).messages = true ∨
      Stuck (w.impdp 3))

def verdict (t : Tried) : DumpType × String := (t.result.dumpType, t.result.failureCode)

/-- For every DDL the classification is backed by the attempts, few are made, and it is the same. -/
structure ProbesWell (j : Job) (w : Outcomes) : Prop where
  datapump : ∀ ddl, verdict ((w.withDdl ddl).probe j) = (.datapump, "") →
    ∃ a, ((w.withDdl ddl).probe j).impdp.getLast? = some a ∧ a.code = 0
  legacy : ∀ ddl, (verdict ((w.withDdl ddl).probe j)).1 = .legacyExp →
    (∃ a ∈ ((w.withDdl ddl).probe j).impdp, occurs "ORA-39143" a.messages = true) ∧
      ((w.withDdl ddl).probe j).imp = true ∧ w.imp.1 = 0
  few : ∀ ddl, ((w.withDdl ddl).probe j).impdp.length ≤ 3
  independent : ∀ ddl ddl', verdict ((w.withDdl ddl).probe j) = verdict ((w.withDdl ddl').probe j)

section

variable {j : Job} {imp : ℤ × Text} {w : Outcomes}

theorem byFailure_unresolvedUser (tried : List Attempt) :
    verdict (probeByFailure j imp unresolvedUser tried) = (.probeFailed, unresolvedUser) := rfl

variable {tried : List Attempt}

theorem byFailure_of_verdict {failureCode : String}
    (h : verdict (probeByFailure j imp failureCode tried) = (.probeFailed, unresolvedUser)) :
    failureCode = unresolvedUser := by
  unfold probeByFailure at h
  split_ifs at h
  all_goals have hcode : _ = unresolvedUser := congrArg Prod.snd h
  · exact hcode
  · exact hcode
  · exact hcode
  · exact absurd (show "legacy_probe_failed" = unresolvedUser from hcode) (by decide)
  · exact absurd (congrArg Prod.fst h) (nomatch ·)

/-! ### Texts of the attempts -/

variable {a : Attempt}

theorem messages_mono (h : Job.hasLegacyExpMarker a.messages = true) :
    Job.hasLegacyExpMarker a.probed.combined = true := by
  rw [legacy_combined]
  exact Bool.or_eq_true_iff.mpr (.inl h)

theorem unresolvedUser_mono (h : Job.classifyProbeFailure a.messages = unresolvedUser) :
    Job.classifyProbeFailure a.probed.combined = unresolvedUser := by
  rw [classify_unresolvedUser_iff] at h ⊢
  rw [userMessages_combined, h]
  rfl

theorem isAgain_mono (h : IsAgain (Job.classifyProbeFailure a.messages)) :
    Job.classifyProbeFailure a.probed.combined = unresolvedUser ∨
      IsAgain (Job.classifyProbeFailure a.probed.combined) := by
  rw [classify_unresolvedUser_iff, classify_isAgain_iff]
  refine or_iff_not_imp_left.mpr fun hne => ⟨hne, ?_⟩
  rw [directoryMessage_combined, ((classify_isAgain_iff _).mp h).2, Bool.true_or]

theorem failureCode_of_fails (h : a.code ≠ 0) :
    a.probed.failureCode = Job.classifyProbeFailure a.probed.combined := if_pos h

theorem failureCode_of_succeeds (h : a.code = 0) : a.probed.failureCode = "" := if_neg (not_not.mpr h)

/-! ### Where the classification is settled -/

/-- The attempt without `COMMENT` fails on an unknown user, with whatever DDL. -/
theorem retry_unresolvedUser (h : Stuck a) (ddl : Text) (tried : List Attempt) :
    verdict (probeRetry j imp { a with sqlfile := ddl } tried) = (.probeFailed, unresolvedUser) := by
  have hclass := unresolvedUser_mono (a := { a with sqlfile := ddl }) h.1
  unfold probeRetry
  rw [if_neg, hclass]
  · exact byFailure_unresolvedUser _
  · rintro ⟨hcode, hmarker⟩
    rcases h.2 with hfails | hlegacy
    · exact hfails hcode
    · exact Bool.false_ne_true (hmarker.symm.trans (messages_mono (a := { a with sqlfile := ddl }) hlegacy))

variable {last : Attempt} {combined : Text}

theorem settle_unresolvedUser {retry : Attempt} (hcode : last.code ≠ 0)
    (hclass : Job.classifyProbeFailure last.probed.combined = unresolvedUser)
    (h : Job.hasLegacyExpMarker combined = true ∨
      verdict (probeRetry j imp retry tried) = (.probeFailed, unresolvedUser)) :
    verdict (probeSettle j imp retry tried last combined) = (.probeFailed, unresolvedUser) := by
  unfold probeSettle
  rw [if_neg fun hok => hcode hok.1, failureCode_of_fails hcode, hclass]
  split_ifs with hcomment
  · exact h.resolve_left fun hlegacy => Bool.false_ne_true (hcomment.1.symm.trans hlegacy)
  · exact byFailure_unresolvedUser _

/-- An attempt that exits with 0 is believed unless the texts have a marker of the original export. -/
theorem settle_of_succeeds {retry : Attempt} (hcode : last.code = 0) :
    verdict (probeSettle j imp retry tried last combined) =
      if Job.hasLegacyExpMarker combined = true then (.probeFailed, "") else (.datapump, "") := by
  unfold probeSettle
  cases Job.hasLegacyExpMarker combined with
  | true =>
      rw [if_neg fun hok => (nomatch hok.2), if_neg fun hok => (nomatch hok.1), failureCode_of_succeeds hcode]
      rfl
  | false =>
      rw [if_pos ⟨hcode, rfl⟩]
      rfl

theorem legacy_append (a b : Attempt) :
    Job.hasLegacyExpMarker (a.probed.combined ++ ['\n'] ++ b.probed.combined) =
      (Job.hasLegacyExpMarker a.probed.combined || Job.hasLegacyExpMarker b.probed.combined) := by
  have hone : ∀ (m : String) (x y : Text), m.toList ≠ [] ∧ '\n' ∉ m.toList →
      occurs m (x ++ ['\n'] ++ y) = (occurs m x || occurs m y) := by
    intro m x y hm
    rw [Bool.eq_iff_iff, Bool.or_eq_true]
    unfold occurs
    rw [decide_eq_true_eq, decide_eq_true_eq, decide_eq_true_eq, List.append_assoc, List.singleton_append]
    exact infix_newline hm.1 hm.2
  unfold Job.hasLegacyExpMarker
  rw [List.map_append, List.map_append, hone _ _ _ (by decide +kernel),
    show ['\n'].map Char.toLower = ['\n'] from rfl, hone _ _ _ (by decide +kernel), Bool.or_assoc, Bool.or_assoc,
    Bool.or_left_comm (occurs _ b.probed.combined)]

theorem settled_verdict (h : Settled w) : ∃ code, ∀ ddl,
    verdict ((w.withDdl ddl).probe j) = (.probeFailed, code) := by
  have hstuck : ∀ {n : ℕ}, Stuck (w.impdp n) → ∀ ddl tried,
      verdict (probeRetry j w.imp ((w.withDdl ddl).impdp n) tried) = (.probeFailed, unresolvedUser) :=
    fun hs ddl tried => retry_unresolvedUser hs (ddl _) tried
  have hlegacy : ∀ {n : ℕ}, Job.hasLegacyExpMarker (w.impdp n).messages = true → ∀ ddl,
      Job.hasLegacyExpMarker ((w.withDdl ddl).impdp n).probed.combined = true :=
    fun hmarker ddl => messages_mono (a := (w.withDdl ddl).impdp _) hmarker
  have huser : ∀ {n : ℕ}, Job.classifyProbeFailure (w.impdp n).messages = unresolvedUser → ∀ ddl,
      Job.classifyProbeFailure ((w.withDdl ddl).impdp n).probed.combined = unresolvedUser :=
    fun hclass ddl => unresolvedUser_mono (a := (w.withDdl ddl).impdp _) hclass
  rcases h with ⟨hcode, hmarker⟩ | ⟨hcode, hclass, hcomment⟩ | ⟨hcode, hagain, ⟨hcode', hclass⟩, hcomment⟩
  · refine ⟨"", fun ddl => ?_⟩
    have hcode : ((w.withDdl ddl).impdp 1).code = 0 := hcode
    unfold Outcomes.probe
    dsimp only
    rw [failureCode_of_succeeds hcode, if_neg (by decide), settle_of_succeeds hcode, hlegacy hmarker, if_pos rfl]
  · refine ⟨unresolvedUser, fun ddl => ?_⟩
    have hcode : ((w.withDdl ddl).impdp 1).code ≠ 0 := hcode
    unfold Outcomes.probe
    dsimp only
    rw [failureCode_of_fails hcode, huser hclass, if_neg (by decide)]
    exact settle_unresolvedUser hcode (huser hclass ddl) (hcomment.imp (hlegacy · ddl) (hstuck · ddl _))
  · refine ⟨unresolvedUser, fun ddl => ?_⟩
    have hcode : ((w.withDdl ddl).impdp 1).code ≠ 0 := hcode
    unfold Outcomes.probe
    dsimp only
    rw [failureCode_of_fails hcode]
    rcases isAgain_mono (a := (w.withDdl ddl).impdp 1) hagain with huser1 | hagain1
    · rw [huser1, if_neg (by decide)]
      exact settle_unresolvedUser hcode huser1 (.inr (hstuck ⟨hclass, .inl hcode'⟩ ddl _))
    · rw [if_pos (show _ ∨ _ from hagain1)]
      refine settle_unresolvedUser hcode' (huser hclass ddl) ?_
      rw [legacy_append, Bool.or_eq_true]
      rcases hcomment with hm | hm | hs
      · exact .inl (.inl (hlegacy hm ddl))
      · exact .inl (.inr (hlegacy hm ddl))
      · exact .inr (hstuck hs ddl _)

/-! ### Where it is not -/

/-- The DDL `text` in the first attempt and none in the others. -/
def firstDdl (text : String) (n : ℕ) : Text := if n = 1 then text.toList else []

theorem stuck_of_retry
    (h : verdict (probeRetry j imp { a with sqlfile := [] } tried) = (.probeFailed, unresolvedUser)) : Stuck a := by
  unfold probeRetry at h
  split_ifs at h with hok
  · exact absurd (congrArg Prod.fst h) (nomatch ·)
  · refine ⟨byFailure_of_verdict h, or_iff_not_imp_left.mpr fun hcode => ?_⟩
    exact Bool.eq_true_of_not_eq_false fun hmarker => hok ⟨not_not.mp hcode, hmarker⟩

/-- With a marker of the original export the class of the last attempt is the verdict. -/
theorem fails_of_settle {retry : Attempt} (hmarker : Job.hasLegacyExpMarker combined = true)
    (h : verdict (probeSettle j imp retry tried last combined) = (.probeFailed, unresolvedUser)) :
    last.code ≠ 0 ∧ Job.classifyProbeFailure last.probed.combined = unresolvedUser := by
  unfold probeSettle at h
  rw [if_neg fun hok => Bool.false_ne_true (hok.2.symm.trans hmarker),
    if_neg fun hok => Bool.false_ne_true (hok.1.symm.trans hmarker)] at h
  have hclass := byFailure_of_verdict h
  by_cases hcode : last.code = 0
  · rw [failureCode_of_succeeds hcode] at hclass
    exact absurd hclass (by decide)
  · exact ⟨hcode, failureCode_of_fails hcode ▸ hclass⟩

/-- Without one, and with a comment that has lost characters, the next attempt is. -/
theorem stuck_of_settle (hcode : last.code ≠ 0) (hmarker : Job.hasLegacyExpMarker combined = false)
    (hloss : Job.hasCommentCharsetLoss combined = true)
    (h : verdict (probeSettle j imp { a with sqlfile := [] } tried last combined) = (.probeFailed, unresolvedUser)) :
    Stuck a := by
  unfold probeSettle at h
  rw [if_neg fun hok => hcode hok.1, if_pos ⟨hmarker, hloss⟩] at h
  exact stuck_of_retry h

theorem loss_combined (h : a.sqlfile = "ORA-39346 COMMENT".toList) :
    Job.hasCommentCharsetLoss a.probed.combined = true := by
  have hcode := occurs_combined (m := "ORA-39346") (g := id) (by decide +kernel) (fun _ _ => rfl) rfl a
  have hcomment := occurs_combined (m := "COMMENT") (by decide +kernel) Text.upper_append rfl a
  have hparts : occurs "ORA-39346" a.sqlfile = true ∧ occurs "COMMENT" (Text.upper a.sqlfile) = true := by
    rw [h]
    decide +kernel
  dsimp only [id] at hcode
  unfold Job.hasCommentCharsetLoss
  rw [hcode, hcomment, hparts.1, hparts.2, Bool.or_true, Bool.or_true]
  rfl

theorem loss_append {x y : Text} (h : Job.hasCommentCharsetLoss x = true) :
    Job.hasCommentCharsetLoss (x ++ ['\n'] ++ y) = true := by
  unfold Job.hasCommentCharsetLoss occurs at h ⊢
  rw [Bool.and_eq_true, decide_eq_true_eq, decide_eq_true_eq] at h ⊢
  rw [Text.upper_append, Text.upper_append, List.append_assoc, List.append_assoc]
  exact ⟨h.1.trans List.infix_append_left, h.2.trans List.infix_append_left⟩

theorem settled_of_independent
    (h : ∀ ddl ddl', verdict ((w.withDdl ddl).probe j) = verdict ((w.withDdl ddl').probe j)) : Settled w := by
  by_cases hcode : (w.impdp 1).code = 0
  · refine .inl ⟨hcode, Bool.eq_true_of_not_eq_false fun hmarker => ?_⟩
    have hverdict : ∀ text, verdict ((w.withDdl (firstDdl text)).probe j) =
        if Job.hasLegacyExpMarker text.toList = true then (.probeFailed, "") else (.datapump, "") := by
      intro text
      have hlegacy := legacy_combined ((w.withDdl (firstDdl text)).impdp 1)
      rw [show ((w.withDdl (firstDdl text)).impdp 1).messages = (w.impdp 1).messages from rfl, hmarker,
        Bool.false_or, show ((w.withDdl (firstDdl text)).impdp 1).sqlfile = text.toList from rfl] at hlegacy
      have hzero : ((w.withDdl (firstDdl text)).impdp 1).code = 0 := hcode
      unfold Outcomes.probe
      dsimp only
      rw [failureCode_of_succeeds hzero, if_neg (by decide), settle_of_succeeds hzero, hlegacy]
    have hsame := h (firstDdl "") (firstDdl "ORA-39143")
    rw [hverdict, hverdict, if_neg (by decide +kernel), if_pos (by decide +kernel)] at hsame
    exact (nomatch congrArg Prod.fst hsame)
  · have hfails : ∀ text, ((w.withDdl (firstDdl text)).impdp 1).code ≠ 0 := fun _ => hcode
    have hlegacy : ∀ text, Job.hasLegacyExpMarker text.toList = true →
        Job.hasLegacyExpMarker ((w.withDdl (firstDdl text)).impdp 1).probed.combined = true := by
      intro text htext
      rw [legacy_combined]
      exact Bool.or_eq_true_iff.mpr (.inr htext)
    -- a DDL with the messages of an unknown user
    have hall : ∀ ddl, verdict ((w.withDdl ddl).probe j) = (.probeFailed, unresolvedUser) := by
      intro ddl
      rw [h ddl (firstDdl "unable to find user no matching entries in passwd file ORA-39143")]
      generalize htext : "unable to find user no matching entries in passwd file ORA-39143" = text
      have hclass :
          Job.classifyProbeFailure ((w.withDdl (firstDdl text)).impdp 1).probed.combined = unresolvedUser := by
        have hmessages : userMessages text.toList = (true, true) := by
          rw [← htext]
          decide +kernel
        rw [classify_unresolvedUser_iff, userMessages_combined]
        change (_ || (userMessages text.toList).1, _ || (userMessages text.toList).2) = _
        rw [hmessages, Bool.or_true, Bool.or_true]
      unfold Outcomes.probe
      dsimp only
      rw [failureCode_of_fails (hfails text), hclass, if_neg (by decide)]
      exact settle_unresolvedUser (hfails text) hclass (.inl (hlegacy text (by rw [← htext]; decide +kernel)))
    have hcase := fun text => hall (firstDdl text)
    unfold Outcomes.probe at hcase
    dsimp only at hcase
    -- a DDL without them leaves the class to the messages
    have hquiet : ∀ text, userMessages text.toList = (false, false) →
        (Job.classifyProbeFailure ((w.withDdl (firstDdl text)).impdp 1).probed.combined = unresolvedUser ↔
          Job.classifyProbeFailure (w.impdp 1).messages = unresolvedUser) := by
      intro text htext
      rw [classify_unresolvedUser_iff, classify_unresolvedUser_iff, userMessages_combined]
      change (_ || (userMessages text.toList).1, _ || (userMessages text.toList).2) = _ ↔ _
      rw [htext, Bool.or_false, Bool.or_false]
      rfl
    have hagain : ∀ text, userMessages text.toList = (false, false) → directoryMessage text.toList = false →
        (IsAgain (Job.classifyProbeFailure ((w.withDdl (firstDdl text)).impdp 1).probed.combined) ↔
          IsAgain (Job.classifyProbeFailure (w.impdp 1).messages)) := by
      intro text htext hdirectory
      rw [classify_isAgain_iff, classify_isAgain_iff, Ne, Ne, ← classify_unresolvedUser_iff,
        ← classify_unresolvedUser_iff, hquiet text htext, directoryMessage_combined]
      change _ ∧ (_ || directoryMessage text.toList) = true ↔ _
      rw [hdirectory, Bool.or_false]
      rfl
    have hlost : ∀ {text}, text = "ORA-39346 COMMENT" → Job.hasCommentCharsetLoss
        ((w.withDdl (firstDdl text)).impdp 1).probed.combined = true := fun htext =>
      loss_combined (congrArg String.toList htext)
    have hunmarked : Job.hasLegacyExpMarker (w.impdp 1).messages = false → ∀ {text}, text = "ORA-39346 COMMENT" →
        Job.hasLegacyExpMarker ((w.withDdl (firstDdl text)).impdp 1).probed.combined = false := by
      rintro hmarker _ rfl
      rw [legacy_combined]
      exact Bool.or_eq_false_iff.mpr ⟨hmarker, (by decide +kernel : Job.hasLegacyExpMarker
        "ORA-39346 COMMENT".toList = false)⟩
    by_cases hclass : Job.classifyProbeFailure (w.impdp 1).messages = unresolvedUser
    · refine .inr (.inl ⟨hcode, hclass, or_iff_not_imp_left.mpr fun hmarker => ?_⟩)
      have hlast := hcase "ORA-39346 COMMENT"
      rw [failureCode_of_fails (hfails _), (hquiet _ (by decide +kernel)).mpr hclass, if_neg (by decide)] at hlast
      exact stuck_of_settle (hfails _) (hunmarked (Bool.eq_false_of_not_eq_true hmarker) rfl) (hlost rfl) hlast
    · by_cases hdirectory : IsAgain (Job.classifyProbeFailure (w.impdp 1).messages)
      · have hsecond := hcase "ORA-39143"
        rw [failureCode_of_fails (hfails _),
          if_pos (show _ ∨ _ from (hagain _ (by decide +kernel) (by decide +kernel)).mpr hdirectory)] at hsecond
        have hend := fails_of_settle (by rw [legacy_append, hlegacy _ (by decide +kernel)]; rfl) hsecond
        refine .inr (.inr ⟨hcode, hdirectory, hend, or_iff_not_imp_left.mpr fun hmarker =>
          or_iff_not_imp_left.mpr fun hmarker' => ?_⟩)
        have hlast := hcase "ORA-39346 COMMENT"
        rw [failureCode_of_fails (hfails _),
          if_pos (show _ ∨ _ from (hagain _ (by decide +kernel) (by decide +kernel)).mpr hdirectory)] at hlast
        refine stuck_of_settle hend.1 ?_ (loss_append (hlost rfl)) hlast
        rw [legacy_append, hunmarked (Bool.eq_false_of_not_eq_true hmarker) rfl]
        exact Bool.eq_false_of_not_eq_true hmarker'
      · have hlast := hcase "ORA-39059 ORA-39143"
        rw [failureCode_of_fails (hfails _),
          if_neg (show ¬(_ ∨ _) from mt (hagain _ (by decide +kernel) (by decide +kernel)).mp hdirectory)] at hlast
        have hloud := (fails_of_settle (hlegacy _ (by decide +kernel)) hlast).2
        exact absurd ((hquiet _ (by decide +kernel)).mp hloud) hclass

/-- The probe classifies well, whatever the DDL is, exactly where exit codes and messages settle it. -/
theorem probe_well_iff (j : Job) (w : Outcomes) : ProbesWell j w ↔ Settled w := by
  refine ⟨fun h => settled_of_independent h.independent, fun h => ?_⟩
  obtain ⟨code, hverdict⟩ := settled_verdict (j := j) h
  refine ⟨fun ddl hd => ?_, fun ddl hd => ?_, fun ddl => ?_, fun ddl ddl' => ?_⟩
  · exact (nomatch congrArg Prod.fst ((hverdict ddl).symm.trans hd))
  · rw [hverdict] at hd
    exact (nomatch hd)
  · have hfailure : ∀ failureCode tried, (probeByFailure j w.imp failureCode tried).impdp = tried := by
      intro failureCode tried
      unfold probeByFailure
      split_ifs <;> rfl
    have hsettle : ∀ retry tried last combined,
        (probeSettle j w.imp retry tried last combined).impdp.length ≤ tried.length + 1 := by
      intro retry tried last combined
      unfold probeSettle probeRetry
      split_ifs
      · exact Nat.le_succ _
      · exact List.length_append.le
      · exact (congrArg List.length (hfailure _ _)).trans_le List.length_append.le
      · exact (congrArg List.length (hfailure _ _)).trans_le (Nat.le_succ _)
    unfold Outcomes.probe
    dsimp only
    split_ifs
    · exact hsettle _ _ _ _
    · exact (hsettle _ _ _ _).trans (Nat.le_succ 2)
  · rw [hverdict, hverdict]

end

/-- A dump that the probe reads. -/
def readDump : Outcomes := ⟨fun _ => ⟨0, [], [], []⟩, (0, [])⟩

/-- A comment in its DDL makes it a dump that could not be read. -/
theorem readDump_mistaken : ¬∀ (j : Job) (w : Outcomes), ProbesWell j w := by
  intro hall
  have hjob : Job :=
    { container := [], connect := [], pdb := [], containerDir := [], runId := [], directContainerDir := [],
      directoryObject := [], dumpDirectoryObject := [], targetDatafileDir := [], jobName := [], recreate := false,
      execute := false, defaultTablespace := [], exportLogMissingCount := 0, sourceFiles := none,
      generatedDirectory := [], parseMetadata := fun _ => ([], [], []), validate := fun _ => .ok (),
      buildPlan := fun _ _ => .error "", busy := false, stopAt := none, answer := fun _ => ⟨0, [], false⟩ }
  rcases settled_of_independent (hall hjob readDump).independent with ⟨-, h⟩ | ⟨h, -⟩ | ⟨h, -⟩
  · exact absurd h (by decide +kernel)
  · exact h rfl
  · exact h rfl

end RecoveryService.AutoImport
