import RecoveryService.Lib.Text

/-! # Texts that read alike

Where every run of characters with `p` counts as one `r`, a text is read character by character
(`Next`).  Two texts read alike for `n` characters (`Alike`) exactly when the first `n` characters of
`subRuns` are the same for them (`alike_iff`); stripping `r` after the runs are replaced is stripping the
runs and `r` before (`stripChars_subRuns_eq`). -/

namespace Text

variable {p : Char → Bool} {r : Char} {fold : Char → Char}

/-- The text reads `c` first; the last argument is what remains. -/
inductive Next (p : Char → Bool) (r : Char) : List Char → Char → List Char → Prop
  | char {c : Char} {rest : List Char} : p c = false → Next p r (c :: rest) c rest
  | run {run rest : List Char} : run ≠ [] → (∀ c ∈ run, p c = true) → (∀ c ∈ rest.head?, p c = false) →
      Next p r (run ++ rest) r rest

/-- Both texts read the same for `n` characters, or to their common end; characters are compared by
`fold`. -/
inductive Alike (p : Char → Bool) (r : Char) (fold : Char → Char) : ℕ → List Char → List Char → Prop
  | full (v w : List Char) : Alike p r fold 0 v w
  | ended (n : ℕ) : Alike p r fold n [] []
  | next {n : ℕ} {c d : Char} {v v' w w' : List Char} : Next p r v c v' → Next p r w d w' →
      fold c = fold d → Alike p r fold n v' w' → Alike p r fold (n + 1) v w

/-! ### Reading -/

/-- Behind a run that is over nothing of it is left. -/
theorem subRuns_closed {rest : List Char} (h : ∀ c ∈ rest.head?, p c = false) :
    subRuns p r true rest = subRuns p r false rest := by
  cases rest with
  | nil => rfl
  | cons c rest =>
      have hc : p c = false := h c rfl
      rw [subRuns, subRuns, hc]
      rfl

theorem subRuns_run {run rest : List Char} (h : ∀ c ∈ run, p c = true) :
    subRuns p r true (run ++ rest) = subRuns p r true rest := by
  induction run with
  | nil => rfl
  | cons c run ih =>
      rw [List.forall_mem_cons] at h
      rw [List.cons_append, subRuns, if_pos h.1, if_pos rfl, ih h.2]

theorem Next.subRuns_eq {v rest : List Char} {c : Char} (h : Next p r v c rest) :
    subRuns p r false v = c :: subRuns p r false rest := by
  cases h with
  | char hc => rw [subRuns, hc, if_neg Bool.false_ne_true]
  | @run run _ hne hrun hrest =>
      cases run with
      | nil => exact (hne rfl).elim
      | cons d run =>
          rw [List.forall_mem_cons] at hrun
          rw [List.cons_append, subRuns, if_pos hrun.1, if_neg Bool.false_ne_true, subRuns_run hrun.2,
            subRuns_closed hrest]

/-- Every text that is not empty reads some character. -/
theorem exists_next {v : List Char} (h : v ≠ []) : ∃ c rest, Next p r v c rest := by
  cases v with
  | nil => exact (h rfl).elim
  | cons c v =>
      cases hc : p c with
      | false => exact ⟨c, v, .char hc⟩
      | true =>
          refine ⟨r, (c :: v).dropWhile p, ?_⟩
          have hsplit : (c :: v).takeWhile p ++ (c :: v).dropWhile p = c :: v := List.takeWhile_append_dropWhile
          have hread : Next p r ((c :: v).takeWhile p ++ (c :: v).dropWhile p) r ((c :: v).dropWhile p) := by
            refine .run ?_ (fun d hd => List.mem_takeWhile_imp hd) fun d hd => ?_
            · rw [List.takeWhile_cons, if_pos hc]
              exact List.cons_ne_nil _ _
            · have hhead := List.head?_dropWhile_not p (c :: v)
              rw [Option.mem_def.mp hd] at hhead
              exact hhead
          rwa [hsplit] at hread

theorem subRuns_eq_nil {v : List Char} : subRuns p r false v = [] ↔ v = [] := by
  constructor
  · intro h
    by_contra hne
    obtain ⟨c, rest, hread⟩ := exists_next (p := p) (r := r) hne
    rw [hread.subRuns_eq] at h
    exact List.cons_ne_nil _ _ h
  · rintro rfl
    rfl

theorem alike_iff {n : ℕ} {v w : List Char} : Alike p r fold n v w ↔
    ((subRuns p r false v).take n).map fold = ((subRuns p r false w).take n).map fold := by
  constructor
  · intro h
    induction h with
    | full | ended => rfl
    | next hv hw hfold _ ih =>
        rw [hv.subRuns_eq, hw.subRuns_eq, List.take_succ_cons, List.take_succ_cons, List.map_cons,
          List.map_cons, hfold, ih]
  · intro h
    induction n generalizing v w with
    | zero => exact .full v w
    | succ n ih =>
        by_cases hv : v = []
        · have hw : subRuns p r false w = [] := by
            rw [subRuns_eq_nil.mpr hv, List.take_nil, List.map_nil, eq_comm, List.map_eq_nil_iff,
              List.take_eq_nil_iff] at h
            exact h.resolve_left (Nat.succ_ne_zero n)
          rw [hv, subRuns_eq_nil.mp hw]
          exact .ended _
        · obtain ⟨c, v', hread⟩ := exists_next (p := p) (r := r) hv
          have hw : w ≠ [] := by
            rintro rfl
            rw [hread.subRuns_eq] at h
            exact List.cons_ne_nil _ _ h
          obtain ⟨d, w', hread'⟩ := exists_next (p := p) (r := r) hw
          rw [hread.subRuns_eq, hread'.subRuns_eq, List.take_succ_cons, List.take_succ_cons, List.map_cons,
            List.map_cons, List.cons.injEq] at h
          exact .next hread hread' h.1 (ih h.2)

/-! ### Stripping -/

theorem dropWhile_subRuns (inRun : Bool) (cs : List Char) : (subRuns p r inRun cs).dropWhile (· == r) =
      subRuns p r false (cs.dropWhile fun c => p c || c == r) := by
  induction cs generalizing inRun with
  | nil => rfl
  | cons c cs ih =>
      cases hc : p c with
      | true =>
          have hdrop : (c :: cs).dropWhile (fun c => p c || c == r) = cs.dropWhile (fun c => p c || c == r) := by
            rw [List.dropWhile_cons_of_pos]
            rw [hc]
            rfl
          rw [hdrop, ← ih true, subRuns, if_pos hc]
          cases inRun with
          | true => rfl
          | false =>
              rw [if_neg Bool.false_ne_true, List.dropWhile_cons_of_pos (p := (· == r)) (beq_self_eq_true r)]
      | false =>
          have hread : subRuns p r inRun (c :: cs) = c :: subRuns p r false cs := by
            rw [subRuns, hc, if_neg Bool.false_ne_true]
          rw [hread]
          by_cases hcr : (c == r) = true
          · rw [List.dropWhile_cons_of_pos (p := (· == r)) hcr, ih false, List.dropWhile_cons_of_pos]
            rw [hc, hcr]
            rfl
          · have hkeep : ¬ (p c || c == r) = true := by
              rw [hc, Bool.false_or]
              exact hcr
            rw [List.dropWhile_cons_of_neg (p := (· == r)) hcr, List.dropWhile_cons_of_neg (p := fun c => p c || c == r) hkeep,
              subRuns, hc, if_neg Bool.false_ne_true]

/-- The same at the end of the text. -/
theorem rdropWhile_subRuns (cs : List Char) : (subRuns p r false cs).rdropWhile (· == r) =
      subRuns p r false (cs.rdropWhile fun c => p c || c == r) := by
  induction cs using List.reverseRecOn with
  | nil => rfl
  | append_singleton cs c ih =>
      rw [subRuns_append]
      cases hc : p c with
      | true =>
          rw [List.rdropWhile_concat_pos _ _ _ (by rw [hc]; rfl), ← ih, subRuns, if_pos hc]
          split
          · rw [subRuns, List.append_nil]
          · rw [subRuns, List.rdropWhile_concat_pos (· == r) _ _ (beq_self_eq_true r)]
      | false =>
          have hread : subRuns p r (runOpen p false cs) [c] = [c] := by
            rw [subRuns, hc, if_neg Bool.false_ne_true, subRuns]
          rw [hread]
          by_cases hcr : (c == r) = true
          · rw [List.rdropWhile_concat_pos (· == r) _ _ hcr, List.rdropWhile_concat_pos _ _ _ (by rw [hcr, Bool.or_true]),
              ih]
          · have hkeep : ¬ (p c || c == r) = true := by
              rw [hc, Bool.false_or]
              exact hcr
            rw [List.rdropWhile_concat_neg (· == r) _ _ hcr,
              List.rdropWhile_concat_neg (fun c => p c || c == r) _ _ hkeep, subRuns_append, hread]

theorem stripChars_subRuns_eq (cs : List Char) :
    stripChars (· == r) (subRuns p r false cs) = subRuns p r false (stripChars (fun c => p c || c == r) cs) := by
  have hstrip : ∀ (q : Char → Bool) (l : List Char), stripChars q l = (l.dropWhile q).rdropWhile q :=
    fun _ _ => rfl
  rw [hstrip, hstrip, dropWhile_subRuns, rdropWhile_subRuns]

end Text
