import RecoveryService.MysqlRestore.ImportDump

/-! # When a reported success is one

A success is reported where the pipeline exits with 0, which it does when a failed decompressor or filter has
cut the dump, or where the errors are warnings by their words, behind which no statement was executed any
more.  The report is right where no table or data statement is among those that are cut, changed or not
reached. -/

namespace RecoveryService.MysqlRestore

variable (world : World) (method : Method) (dump : List Statement)

/-! ### The claim -/

/-- A table or data statement of the dump. -/
def Wanted (i : ℕ) (st : Statement) : Prop := dump[i]? = some st ∧ st.kind ≠ .other

/-- Every table and data statement was executed as it is in the dump. -/
def Complete : Prop := ∀ i st, Wanted dump i st → ⟨some i, st.lines⟩ ∈ executed world method dump

/-- A reported success is one. -/
def Sound : Prop := report world method dump ≠ .failed → Complete world method dump

/-! ### The condition -/

/-- The first statement that the server rejects. -/
structure FirstRejected (items : List Item) (k : ℕ) (item : Item) (error : Line) : Prop where
  received : items[k]? = some item
  rejected : world.server ((items.take k).map Item.text) item.text = some error
  first : ∀ j < k, ∀ item, items[j]? = some item →
    world.server ((items.take j).map Item.text) item.text = none

/-- The lines before a statement of the dump. -/
def linesBefore (i : ℕ) : ℕ := ((dump.take i).map fun st => st.lines.length).sum

/-- A statement comes through whole, and the filter changes none of its lines. -/
def Arrives (i : ℕ) (st : Statement) : Prop :=
  linesBefore dump i + st.lines.length ≤ world.delivered ∧ ∀ line ∈ st.lines, sanitize line = some line

/-- The statement `item`, at `k` among those received, stands behind the statement `i` of the dump. -/
def StandsBehind (k : ℕ) (item : Item) (i : ℕ) : Prop :=
  prelude.length ≤ k ∧ ∀ j, item.source = some j → i < j

structure HoldsWhen : Prop where
  /-- A rejection that is taken for a warning is behind all table and data statements, which arrive. -/
  rejected : ∀ k item error, FirstRejected world (received world method dump) k item error →
    classifyMysql (world.noise ++ [error]) ≠ .failed → ∀ i st, Wanted dump i st →
      (¬ MissesUnzip world method ∧ Arrives world dump i st) ∧ StandsBehind k item i
  /-- Where nothing is rejected they all arrive, unless `unzip` is missed with a failure. -/
  accepted : (∀ k item error, ¬ FirstRejected world (received world method dump) k item error) →
    (MissesUnzip world method → classifyMysql world.noise ≠ .failed) →
      ∀ i st, Wanted dump i st → ¬ MissesUnzip world method ∧ Arrives world dump i st

variable {world method dump}

/-! ### The client -/

variable {items : List Item}

theorem runClient_none {done : List Item} (h : ∀ j item, items[j]? = some item →
      world.server ((done ++ items.take j).map Item.text) item.text = none) :
    runClient world items done = (done ++ items, none) := by
  induction items generalizing done with
  | nil => rw [runClient, List.append_nil]
  | cons item rest ih =>
      have hitem := h 0 item rfl
      rw [List.take_zero, List.append_nil] at hitem
      rw [runClient, hitem]
      simp only
      rw [ih fun j other hj => ?_, List.append_assoc, List.singleton_append]
      have hother := h (j + 1) other hj
      rwa [List.take_succ_cons, ← List.singleton_append, ← List.append_assoc] at hother

variable {item : Item} {error : Line}
variable {k : ℕ}

theorem runClient_some {done : List Item} (hitem : items[k]? = some item)
    (herror : world.server ((done ++ items.take k).map Item.text) item.text = some error)
    (h : ∀ j < k, ∀ item, items[j]? = some item →
      world.server ((done ++ items.take j).map Item.text) item.text = none) :
    runClient world items done = (done ++ items.take k, some error) := by
  induction items generalizing done k with
  | nil => cases hitem
  | cons first rest ih =>
      cases k with
      | zero =>
          cases hitem
          rw [List.take_zero, List.append_nil] at herror ⊢
          rw [runClient, herror]
      | succ k =>
          have hfirst := h 0 (Nat.succ_pos k) first rfl
          rw [List.take_zero, List.append_nil] at hfirst
          have hshift : ∀ j, done ++ (first :: rest).take (j + 1) = (done ++ [first]) ++ rest.take j := by
            intro j
            rw [List.take_succ_cons, List.append_assoc, List.singleton_append]
          rw [runClient, hfirst, hshift]
          simp only
          refine ih hitem (by rwa [hshift] at herror) fun j hj other hother => ?_
          have hnone := h (j + 1) (Nat.succ_lt_succ hj) other hother
          rwa [hshift] at hnone

theorem FirstRejected.run (h : FirstRejected world items k item error) :
    runClient world items [] = (items.take k, some error) :=
  runClient_some h.received h.rejected h.first

/-- Either the server rejects a statement, and then a first one, or it executes all of them. -/
theorem run_cases (world : World) (items : List Item) :
    (∃ k item error, FirstRejected world items k item error) ∨
      (∀ k item error, ¬ FirstRejected world items k item error) ∧
        runClient world items [] = (items, none) := by
  classical
  by_cases hsome : ∃ k item, items[k]? = some item ∧
      world.server ((items.take k).map Item.text) item.text ≠ none
  · obtain ⟨item, hitem, hne⟩ := Nat.find_spec hsome
    obtain ⟨error, herror⟩ := Option.ne_none_iff_exists'.mp hne
    refine .inl ⟨Nat.find hsome, item, error, hitem, herror, fun j hj other hother => ?_⟩
    by_contra hne
    exact Nat.find_min hsome hj ⟨other, hother, hne⟩
  · refine .inr ⟨fun k item error h => ?_, runClient_none fun j item hitem => ?_⟩
    · refine hsome ⟨k, item, h.received, ?_⟩
      rw [h.rejected]
      exact Option.some_ne_none _
    · by_contra hne
      exact hsome ⟨j, item, hitem, hne⟩

/-! ### The stream -/

/-- The filter keeps a text where it keeps every line of it. -/
theorem filterMap_eq_self_iff {α : Type*} {f : α → Option α} {l : List α} :
    l.filterMap f = l ↔ ∀ a ∈ l, f a = some a := by
  induction l with
  | nil => simp
  | cons a l ih =>
      rw [List.forall_mem_cons, ← ih]
      cases ha : f a with
      | none =>
          rw [List.filterMap_cons_none ha]
          refine iff_of_false (fun h => ?_) fun h => Option.some_ne_none _ h.1.symm
          have hlength := congrArg List.length h
          have hle := List.length_filterMap_le f l
          rw [List.length_cons] at hlength
          omega
      | some b =>
          rw [List.filterMap_cons_some ha, List.cons.injEq, Option.some.injEq]

theorem linesBefore_zero : linesBefore dump 0 = 0 := rfl

variable {st : Statement}

theorem linesBefore_succ {m : ℕ} :
    linesBefore (st :: dump) (m + 1) = st.lines.length + linesBefore dump m := rfl

variable {i : ℕ}

/-- The statements that come through are those whose last line comes through and that keep a line. -/
theorem mem_stream {n j : ℕ} {text : List Line} :
    ⟨some j, text⟩ ∈ (stream n i dump).1 ↔ ∃ m st, j = i + m ∧ dump[m]? = some st ∧
      linesBefore dump m + st.lines.length ≤ n ∧ text = st.lines.filterMap sanitize ∧ text ≠ [] := by
  induction dump generalizing n i with
  | nil =>
      rw [stream]
      simp
  | cons first rest ih =>
      rw [stream]
      by_cases hfit : first.lines.length ≤ n
      · have hrest : (∃ m st, j = i + 1 + m ∧ rest[m]? = some st ∧
              linesBefore rest m + st.lines.length ≤ n - first.lines.length ∧
              text = st.lines.filterMap sanitize ∧ text ≠ []) ↔
            ∃ m st, j = i + (m + 1) ∧ (first :: rest)[m + 1]? = some st ∧
              linesBefore (first :: rest) (m + 1) + st.lines.length ≤ n ∧
              text = st.lines.filterMap sanitize ∧ text ≠ [] := by
          refine exists_congr fun m => exists_congr fun st => ?_
          rw [List.getElem?_cons_succ, linesBefore_succ, Nat.add_right_comm, ← Nat.add_assoc]
          refine and_congr_right fun _ => and_congr_right fun _ => and_congr_left fun _ => ?_
          omega
        have hsplit : (∃ m st, j = i + m ∧ (first :: rest)[m]? = some st ∧
              linesBefore (first :: rest) m + st.lines.length ≤ n ∧
              text = st.lines.filterMap sanitize ∧ text ≠ []) ↔
            (j = i ∧ text = first.lines.filterMap sanitize ∧ text ≠ []) ∨
            ∃ m st, j = i + (m + 1) ∧ (first :: rest)[m + 1]? = some st ∧
              linesBefore (first :: rest) (m + 1) + st.lines.length ≤ n ∧
              text = st.lines.filterMap sanitize ∧ text ≠ [] := by
          constructor
          · rintro ⟨m, st, hj, hst, hrest⟩
            cases m with
            | zero =>
                cases hst
                exact .inl ⟨hj, hrest.2⟩
            | succ m => exact .inr ⟨m, st, hj, hst, hrest⟩
          · rintro (⟨hj, htext⟩ | ⟨m, st, hrest⟩)
            · refine ⟨0, first, hj, rfl, ?_, htext⟩
              rw [linesBefore_zero, Nat.zero_add]
              exact hfit
            · exact ⟨m + 1, st, hrest⟩
        rw [if_pos hfit, hsplit, ← hrest, ← ih]
        by_cases hempty : first.lines.filterMap sanitize = []
        · simp only [hempty, if_true]
          refine ⟨.inr, ?_⟩
          rintro (⟨-, htext, hne⟩ | h)
          · exact absurd htext hne
          · exact h
        · simp only [hempty, if_false, List.mem_cons, Item.mk.injEq, Option.some.injEq]
          refine or_congr_left ⟨fun h => ⟨h.1, h.2, h.2 ▸ hempty⟩, fun h => ⟨h.1, h.2.1⟩⟩
      · rw [if_neg hfit]
        refine iff_of_false List.not_mem_nil ?_
        rintro ⟨m, st, -, hst, hle, -⟩
        cases m with
        | zero =>
            cases hst
            rw [linesBefore_zero, Nat.zero_add] at hle
            exact hfit hle
        | succ m =>
            rw [linesBefore_succ] at hle
            omega

/-- A statement is received as it is in the dump where it arrives. -/
theorem mem_received (hst : dump[i]? = some st) :
    ⟨some i, st.lines⟩ ∈ received world method dump ↔ ¬ MissesUnzip world method ∧ Arrives world dump i st := by
  have hprelude : (⟨some i, st.lines⟩ : Item) ∉ prelude := by simp [prelude]
  have hepilogue : ∀ cut, (⟨some i, st.lines⟩ : Item) ∉ epilogue cut := by simp [epilogue]
  unfold received
  by_cases hmisses : MissesUnzip world method
  · rw [if_pos hmisses]
    exact iff_of_false hprelude fun h => h.1 hmisses
  · rw [if_neg hmisses, List.mem_append, List.mem_append, or_iff_left (hepilogue _), or_iff_right hprelude,
      mem_stream, and_iff_right hmisses]
    constructor
    · rintro ⟨m, other, hm, hother, hle, htext, -⟩
      rw [Nat.zero_add] at hm
      subst hm
      rw [hst, Option.some.injEq] at hother
      subst hother
      exact ⟨hle, filterMap_eq_self_iff.mp htext.symm⟩
    · rintro ⟨hle, hlines⟩
      exact ⟨i, st, (Nat.zero_add i).symm, hst, hle, (filterMap_eq_self_iff.mpr hlines).symm, st.nonempty⟩

/-! ### The order -/

theorem stream_source {n : ℕ} (h : item ∈ (stream n i dump).1) : ∃ j, item.source = some j ∧ i ≤ j := by
  induction dump generalizing n i with
  | nil => cases h
  | cons first rest ih =>
      rw [stream] at h
      split at h
      · simp only at h
        split at h
        · obtain ⟨j, hj, hle⟩ := ih h
          exact ⟨j, hj, Nat.le_of_succ_le hle⟩
        · rcases List.mem_cons.mp h with rfl | h
          · exact ⟨i, rfl, le_refl i⟩
          · obtain ⟨j, hj, hle⟩ := ih h
            exact ⟨j, hj, Nat.le_of_succ_le hle⟩
      · cases h

/-- The first statement is before the second one in the dump, where both are from it. -/
def Before (a b : Item) : Prop := ∀ i j, a.source = some i → b.source = some j → i < j

theorem stream_pairwise {n : ℕ} : (stream n i dump).1.Pairwise Before := by
  induction dump generalizing n i with
  | nil => exact .nil
  | cons first rest ih =>
      rw [stream]
      split
      · simp only
        split
        · exact ih
        · refine List.pairwise_cons.mpr ⟨fun other hother j k hj hk => ?_, ih⟩
          obtain ⟨l, hl, hle⟩ := stream_source hother
          rw [hl, Option.some.injEq] at hk
          rw [Option.some.injEq] at hj
          omega
      · exact .nil

theorem received_pairwise : (received world method dump).Pairwise Before := by
  have hprelude : ∀ a ∈ prelude, a.source = none := by simp [prelude]
  have hepilogue : ∀ cut, ∀ a ∈ epilogue cut, a.source = none := by simp [epilogue]
  have hleft : ∀ a b : Item, a.source = none → Before a b := fun a b ha i j hi => by
    rw [ha] at hi
    cases hi
  have hright : ∀ a b : Item, b.source = none → Before a b := fun a b hb i j hi hj => by
    rw [hb] at hj
    cases hj
  have hpairs : prelude.Pairwise Before := List.pairwise_of_forall_mem_list fun a ha b _ => hleft a b (hprelude a ha)
  unfold received
  split
  · exact hpairs
  · refine List.pairwise_append.mpr ⟨List.pairwise_append.mpr ⟨hpairs, stream_pairwise, ?_⟩, ?_, ?_⟩
    · exact fun a ha b _ => hleft a b (hprelude a ha)
    · exact List.pairwise_of_forall_mem_list fun a ha b _ => hleft a b (hepilogue _ a ha)
    · exact fun a _ b hb => hright a b (hepilogue _ b hb)

/-- A statement from the dump is behind the prelude, and all between them are from the dump. -/
theorem received_between {j : ℕ} (hitem : (received world method dump)[j]? = some item)
    (hi : item.source = some i) : prelude.length ≤ j ∧ ∀ k, prelude.length ≤ k → k ≤ j →
      ∃ other s, (received world method dump)[k]? = some other ∧ other.source = some s := by
  have hprelude : ∀ a ∈ prelude, a.source = none := by simp [prelude]
  have hepilogue : ∀ cut, ∀ a ∈ epilogue cut, a.source = none := by simp [epilogue]
  have hne : ∀ l : List Item, (∀ a ∈ l, a.source = none) → item ∉ l := fun l hl hmem => by
    have hnone := hl item hmem
    rw [hi] at hnone
    cases hnone
  unfold received at hitem ⊢
  split at hitem
  · exact absurd (List.mem_of_getElem? hitem) (hne _ hprelude)
  · rename_i hmisses
    rw [if_neg hmisses]
    have hfrom : prelude.length ≤ j := by
      by_contra hlt
      rw [List.append_assoc, List.getElem?_append_left (Nat.lt_of_not_le hlt)] at hitem
      exact hne _ hprelude (List.mem_of_getElem? hitem)
    have hto : j < prelude.length + (stream world.delivered 0 dump).1.length := by
      by_contra hge
      rw [← List.length_append] at hge
      rw [List.getElem?_append_right (Nat.le_of_not_lt hge)] at hitem
      exact hne _ (hepilogue _) (List.mem_of_getElem? hitem)
    refine ⟨hfrom, fun k hk hkj => ?_⟩
    have hlt : k - prelude.length < (stream world.delivered 0 dump).1.length := by omega
    obtain ⟨s, hs, -⟩ := stream_source (List.getElem_mem hlt)
    refine ⟨(stream world.delivered 0 dump).1[k - prelude.length], s, ?_, hs⟩
    rw [List.getElem?_append_left (by rw [List.length_append]; omega), List.getElem?_append_right hk,
      List.getElem?_eq_getElem hlt]

theorem mem_take_iff {x : Item} (hitem : (received world method dump)[k]? = some item) (hx : x.source = some i) :
    x ∈ (received world method dump).take k ↔
      x ∈ received world method dump ∧ StandsBehind k item i := by
  have hpairwise : (received world method dump).Pairwise Before := received_pairwise
  have hpairs := List.pairwise_iff_getElem.mp hpairwise
  obtain ⟨hk, rfl⟩ := List.getElem?_eq_some_iff.mp hitem
  constructor
  · intro h
    obtain ⟨j, hj, rfl⟩ := List.mem_take_iff_getElem.mp h
    have hlt : j < k := by omega
    have hj' : j < (received world method dump).length := by omega
    obtain ⟨hfrom, -⟩ := received_between (List.getElem?_eq_getElem hj') hx
    exact ⟨List.getElem_mem hj', by omega, fun s hs => hpairs j k hj' hk hlt i s hx hs⟩
  · rintro ⟨hmem, hfrom, hbefore⟩
    obtain ⟨j, hj, rfl⟩ := List.getElem_of_mem hmem
    refine List.mem_take_iff_getElem.mpr ⟨j, ?_, rfl⟩
    by_contra hge
    have hle : k ≤ j := by omega
    obtain ⟨-, hbetween⟩ := received_between (List.getElem?_eq_getElem hj) hx
    obtain ⟨other, s, hother, hs⟩ := hbetween k hfrom hle
    rw [hitem, Option.some.injEq] at hother
    rw [← hother] at hs
    have hafter := hbefore s hs
    rcases Nat.eq_or_lt_of_le hle with rfl | hlt
    · rw [hx, Option.some.injEq] at hs
      omega
    · have hbefore := hpairs k j hk hj hlt s i hs hx
      omega

/-! ### The result -/

theorem report_ne_failed (h : (runClient world (received world method dump) []).2 = none) :
    report world method dump ≠ .failed ↔ (MissesUnzip world method → classifyMysql world.noise ≠ .failed) := by
  unfold report classifyImportResult importDump
  rw [h]
  by_cases hmisses : MissesUnzip world method
  · simp [hmisses]
  · simp [hmisses]

theorem report_of_rejected (h : FirstRejected world (received world method dump) k item error) :
    report world method dump = classifyMysql (world.noise ++ [error]) := by
  unfold report classifyImportResult importDump
  rw [h.run]
  rfl

/-- What was executed is what stands before the rejected statement. -/
theorem mem_executed_of_rejected (h : FirstRejected world (received world method dump) k item error)
    (hst : dump[i]? = some st) : ⟨some i, st.lines⟩ ∈ executed world method dump ↔
      (¬ MissesUnzip world method ∧ Arrives world dump i st) ∧ StandsBehind k item i := by
  unfold executed
  rw [h.run, mem_take_iff h.received rfl, mem_received hst]

theorem mem_executed_of_accepted
    (h : runClient world (received world method dump) [] = (received world method dump, none))
    (hst : dump[i]? = some st) :
    ⟨some i, st.lines⟩ ∈ executed world method dump ↔ ¬ MissesUnzip world method ∧ Arrives world dump i st := by
  unfold executed
  rw [h, mem_received hst]

def createOrders : Statement := ⟨.table, ["CREATE TABLE `orders` (`id` int);".toList], by simp⟩

def createView : Statement := ⟨.other, ["CREATE VIEW `v` AS SELECT `f`(1);".toList], by simp⟩

def insertOrders : Statement := ⟨.data, ["INSERT INTO `orders` VALUES (1);".toList], by simp⟩

/-- The server knows no function `f`. -/
def withoutFunction : World where
  unzip := true
  delivered := 3
  server _ text :=
    if text = createView.lines then some "ERROR 1305 (42000) at line 5: FUNCTION shop.f does not exist".toList
    else none
  noise := []

end RecoveryService.MysqlRestore
