import RecoveryService.Lib.Quoted

/-! # Delimited records

`csv.writer` with `QUOTE_MINIMAL`, for any delimiter and terminator, and a reader for the same two
that keeps whether a field was quoted.  A reader can be built only where no character has two roles
(`Dialect.Readable`); it then reads back what the writer has written (`read_write`). -/

namespace Csv

structure Dialect where
  delimiter : Char
  terminator : List Char

def quote : Char := Char.ofNat 34

/-! ### Writing -/

section

variable (D : Dialect)

/-- A field with such a character is quoted. -/
def Dialect.special (c : Char) : Bool :=
  c = D.delimiter ∨ c = quote ∨ c = '\n' ∨ c = '\r' ∨ c ∈ D.terminator

def quotedField (field : List Char) : List Char := Quoted.enclose quote field

def Dialect.writeField (field : List Char) : List Char :=
  if field.any D.special = true then quotedField field else field

def Dialect.joinFields (D : Dialect) : List (List Char) → List Char
  | [] => []
  | [field] => D.writeField field
  | field :: next :: rest => D.writeField field ++ D.delimiter :: D.joinFields (next :: rest)

/-- `writer.writerow(fields)`: a record that would be empty becomes a quoted empty field. -/
def Dialect.writeRow (fields : List (List Char)) : List Char :=
  (if fields ≠ [] ∧ D.joinFields fields = [] then [quote, quote] else D.joinFields fields) ++
    D.terminator

def Dialect.write (rows : List (List (List Char))) : List Char := rows.flatMap D.writeRow

/-! ### Reading -/

/-- A field as it was read. -/
structure Token where
  quoted : Bool
  text : List Char

/-- A field ends here. -/
def Dialect.ends (cs : List Char) : Bool := cs.head? = some D.delimiter ∨ D.terminator <+: cs

def Dialect.readPlain (D : Dialect) : List Char → List Char × List Char
  | [] => ([], [])
  | c :: cs => if D.ends (c :: cs) = true then ([], c :: cs) else (c :: (D.readPlain cs).1, (D.readPlain cs).2)

def Dialect.readField (cs : List Char) : Option (Token × List Char) :=
  if cs.head? = some quote then (Quoted.readBody quote cs.tail).map fun r => (⟨true, r.1⟩, r.2)
  else some (⟨false, (D.readPlain cs).1⟩, (D.readPlain cs).2)

/-- The fields up to the terminator; no turn leaves nothing. -/
def Dialect.readFields (D : Dialect) : ℕ → List Char → Option (List Token × List Char)
  | 0, _ => none
  | n + 1, cs => do
      let (field, rest) ← D.readField cs
      if rest.head? = some D.delimiter then do
        let (fields, rest) ← D.readFields n rest.tail
        some (field :: fields, rest)
      else if D.terminator <+: rest then some ([field], rest.drop D.terminator.length)
      else none

/-- A record; a blank one has no fields. -/
def Dialect.readRow (cs : List Char) : Option (List Token × List Char) :=
  if D.terminator <+: cs then some ([], cs.drop D.terminator.length)
  else D.readFields (cs.length + 1) cs

def Dialect.readRows (D : Dialect) : ℕ → List Char → Option (List (List Token))
  | 0, _ => none
  | n + 1, cs =>
      if cs = [] then some []
      else do
        let (row, rest) ← D.readRow cs
        let rows ← D.readRows n rest
        some (row :: rows)

/-- No character has two roles. -/
def Dialect.Readable : Prop :=
  D.delimiter ≠ quote ∧ D.delimiter ∉ D.terminator ∧ quote ∉ D.terminator ∧ D.terminator ≠ []

instance : Decidable D.Readable := by
  unfold Dialect.Readable
  infer_instance

/-- A reader refuses a dialect in which a character has two roles. -/
def Dialect.read (cs : List Char) : Option (List (List Token)) :=
  if D.Readable then D.readRows (cs.length + 1) cs else none

/-- What is read of a record that was written. -/
def Dialect.tokens (fields : List (List Char)) : List Token :=
  if fields = [[]] then [⟨true, []⟩] else fields.map fun field => ⟨field.any D.special, field⟩

end

/-! ### Fields -/

variable {D : Dialect}

/-- The field ends before the rest. -/
def Dialect.Behind (D : Dialect) (rest : List Char) : Prop :=
  (∃ r, rest = D.delimiter :: r) ∨ ∃ r, rest = D.terminator ++ r

variable {rest : List Char}

theorem ends_behind (h : D.Behind rest) : D.ends rest = true := by
  unfold Dialect.ends
  rw [decide_eq_true_eq]
  obtain ⟨r, rfl⟩ | ⟨r, rfl⟩ := h
  · exact Or.inl rfl
  · exact Or.inr (List.prefix_append _ _)

theorem special_eq_false {c : Char} (h : D.special c = false) :
    c ≠ D.delimiter ∧ c ≠ quote ∧ c ∉ D.terminator := by
  unfold Dialect.special at h
  rw [decide_eq_false_iff_not] at h
  refine ⟨fun hc => h (Or.inl hc), fun hc => h (Or.inr (Or.inl hc)), fun hc => h ?_⟩
  exact Or.inr (Or.inr (Or.inr (Or.inr hc)))

theorem not_terminator_cons (hD : D.Readable) {c : Char} {cs : List Char} (hc : c ∉ D.terminator) :
    ¬ D.terminator <+: c :: cs := by
  intro hprefix
  cases ht : D.terminator with
  | nil => exact hD.2.2.2 ht
  | cons t ts =>
      rw [ht] at hprefix hc
      obtain ⟨htc, -⟩ := List.cons_prefix_cons.mp hprefix
      exact hc (by rw [htc]; exact List.mem_cons_self)

theorem readPlain_append (hD : D.Readable) {field : List Char} (hfield : field.any D.special = false)
    (hrest : D.Behind rest) : D.readPlain (field ++ rest) = (field, rest) := by
  induction field with
  | nil =>
      cases rest with
      | nil => rfl
      | cons c rest => rw [List.nil_append, Dialect.readPlain, if_pos (ends_behind hrest)]
  | cons c field ih =>
      rw [List.any_cons, Bool.or_eq_false_iff] at hfield
      obtain ⟨hdelimiter, -, hterminator⟩ := special_eq_false hfield.1
      have hends : D.ends (c :: (field ++ rest)) = false := by
        unfold Dialect.ends
        rw [decide_eq_false_iff_not]
        rintro (hhead | hprefix)
        · exact hdelimiter (Option.some.inj hhead)
        · exact not_terminator_cons hD hterminator hprefix
      rw [List.cons_append, Dialect.readPlain, if_neg (by rw [hends]; decide), ih hfield.2]

theorem behind_head (hD : D.Readable) (h : D.Behind rest) : rest.head? ≠ some quote := by
  obtain ⟨r, rfl⟩ | ⟨r, rfl⟩ := h
  · exact fun heq => hD.1 (Option.some.inj heq)
  · cases ht : D.terminator with
    | nil => exact absurd ht hD.2.2.2
    | cons t ts =>
        intro heq
        apply hD.2.2.1
        rw [ht, ← Option.some.inj heq]
        exact List.mem_cons_self

theorem readField_quoted (hD : D.Readable) (field : List Char) (hrest : D.Behind rest) :
    D.readField (quotedField field ++ rest) = some (⟨true, field⟩, rest) := by
  unfold quotedField Dialect.readField
  rw [Quoted.enclose_append, List.head?_cons, if_pos rfl, List.tail_cons,
    Quoted.readBody_double field (behind_head hD hrest)]
  rfl

theorem readField_write (hD : D.Readable) (field : List Char) (hrest : D.Behind rest) :
    D.readField (D.writeField field ++ rest) = some (⟨field.any D.special, field⟩, rest) := by
  unfold Dialect.writeField
  by_cases hspecial : field.any D.special = true
  · rw [if_pos hspecial, hspecial]
    exact readField_quoted hD field hrest
  · rw [if_neg hspecial]
    rw [Bool.not_eq_true] at hspecial
    have hhead : (field ++ rest).head? ≠ some quote := by
      cases field with
      | nil => exact behind_head hD hrest
      | cons c field =>
          rw [List.any_cons, Bool.or_eq_false_iff] at hspecial
          exact fun heq => (special_eq_false hspecial.1).2.1 (Option.some.inj heq)
    unfold Dialect.readField
    rw [if_neg hhead, readPlain_append hD hspecial hrest, hspecial]

/-! ### Records -/

theorem behind_terminator (D : Dialect) (rest : List Char) : D.Behind (D.terminator ++ rest) :=
  Or.inr ⟨rest, rfl⟩

theorem terminator_head (hD : D.Readable) (rest : List Char) :
    (D.terminator ++ rest).head? ≠ some D.delimiter := by
  cases ht : D.terminator with
  | nil => exact absurd ht hD.2.2.2
  | cons t ts =>
      intro heq
      apply hD.2.1
      rw [ht, ← Option.some.inj heq]
      exact List.mem_cons_self

/-- The end of a record behind its last field. -/
theorem readFields_last (hD : D.Readable) {n : ℕ} {cs : List Char} {field : Token}
    (h : D.readField cs = some (field, D.terminator ++ rest)) :
    D.readFields (n + 1) cs = some ([field], rest) := by
  unfold Dialect.readFields
  rw [h]
  show (if _ then _ else _) = _
  rw [if_neg (terminator_head hD rest), if_pos (List.prefix_append _ _), List.drop_left]

variable {fields : List (List Char)}

theorem readFields_join (hD : D.Readable) {n : ℕ} (hne : fields ≠ []) (hn : fields.length ≤ n)
    (rest : List Char) : D.readFields n (D.joinFields fields ++ (D.terminator ++ rest)) =
      some (fields.map (fun field => ⟨field.any D.special, field⟩), rest) := by
  induction fields generalizing n with
  | nil => exact absurd rfl hne
  | cons field fields ih =>
      obtain ⟨n, rfl⟩ : ∃ k, n = k + 1 := ⟨n - 1, by simp only [List.length_cons] at hn; omega⟩
      cases fields with
      | nil =>
          exact readFields_last hD (readField_write hD field (behind_terminator D rest))
      | cons next fields =>
          have hlen : (next :: fields).length ≤ n := by
            rw [List.length_cons] at hn
            omega
          have hrest := ih (List.cons_ne_nil next fields) hlen
          have hjoin : D.joinFields (field :: next :: fields) ++ (D.terminator ++ rest) =
              D.writeField field ++
                D.delimiter :: (D.joinFields (next :: fields) ++ (D.terminator ++ rest)) := by
            rw [Dialect.joinFields, List.append_assoc, List.cons_append]
          have hfield := readField_write hD field
            (Or.inl ⟨D.joinFields (next :: fields) ++ (D.terminator ++ rest), rfl⟩ : D.Behind
              (D.delimiter :: (D.joinFields (next :: fields) ++ (D.terminator ++ rest))))
          rw [hjoin]
          unfold Dialect.readFields
          rw [hfield]
          show (if _ then _ else _) = _
          rw [List.head?_cons, if_pos rfl, List.tail_cons, hrest]
          rfl

theorem joinFields_ne_nil (hne : fields ≠ []) (hone : fields ≠ [[]]) : D.joinFields fields ≠ [] := by
  match fields with
  | [] => exact absurd rfl hne
  | [field] =>
      have hfield : field ≠ [] := fun h => hone (by rw [h])
      rw [Dialect.joinFields, Dialect.writeField]
      split
      · exact List.cons_ne_nil _ _
      · exact hfield
  | field :: next :: fields =>
      rw [Dialect.joinFields]
      simp

theorem not_terminator_field (hD : D.Readable) {field : List Char} (hne : field ≠ [])
    (rest : List Char) : ¬ D.terminator <+: D.writeField field ++ rest := by
  unfold Dialect.writeField
  by_cases hspecial : field.any D.special = true
  · rw [if_pos hspecial]
    exact not_terminator_cons hD hD.2.2.1
  · rw [if_neg hspecial]
    cases field with
    | nil => exact absurd rfl hne
    | cons c field =>
        rw [Bool.not_eq_true, List.any_cons, Bool.or_eq_false_iff] at hspecial
        exact not_terminator_cons hD (special_eq_false hspecial.1).2.2

/-- A record does not begin with the terminator. -/
theorem not_terminator_join (hD : D.Readable) (hne : fields ≠ []) (hone : fields ≠ [[]]) (rest : List Char) :
    ¬ D.terminator <+: D.joinFields fields ++ rest := by
  match fields with
  | [] => exact absurd rfl hne
  | [field] => exact not_terminator_field hD (fun h => hone (by rw [h])) rest
  | field :: next :: fields =>
      rw [Dialect.joinFields, List.append_assoc]
      by_cases hfield : field = []
      · have hempty : D.writeField field = [] := by rw [hfield]; rfl
        rw [hempty]
        exact not_terminator_cons hD hD.2.1
      · exact not_terminator_field hD hfield _

theorem length_le_join (fields : List (List Char)) : fields.length ≤ (D.joinFields fields).length + 1 := by
  match fields with
  | [] => exact Nat.zero_le _
  | [field] => exact Nat.le_add_left _ _
  | field :: next :: fields =>
      have ih := length_le_join (next :: fields)
      rw [Dialect.joinFields, List.length_append]
      simp only [List.length_cons] at ih ⊢
      omega

theorem writeRow_nil (D : Dialect) : D.writeRow [] = D.terminator := rfl

theorem writeRow_empty (D : Dialect) : D.writeRow [[]] = quotedField [] ++ D.terminator := rfl

theorem writeRow_join (hne : fields ≠ []) (hone : fields ≠ [[]]) :
    D.writeRow fields = D.joinFields fields ++ D.terminator := by
  unfold Dialect.writeRow
  rw [if_neg (fun h => joinFields_ne_nil hne hone h.2)]

theorem readRow_write (hD : D.Readable) (fields : List (List Char)) (rest : List Char) :
    D.readRow (D.writeRow fields ++ rest) = some (D.tokens fields, rest) := by
  unfold Dialect.readRow Dialect.tokens
  by_cases hne : fields = []
  · rw [hne, writeRow_nil, if_pos (List.prefix_append _ _), List.drop_left]
    rfl
  by_cases hone : fields = [[]]
  · have hprefix : ¬ D.terminator <+: quotedField [] ++ D.terminator ++ rest :=
      not_terminator_cons hD hD.2.2.1
    rw [hone, writeRow_empty, if_neg hprefix, if_pos rfl, List.append_assoc]
    exact readFields_last hD (readField_quoted hD [] (behind_terminator D rest))
  · rw [writeRow_join hne hone, List.append_assoc, if_neg (not_terminator_join hD hne hone _),
      if_neg hone]
    refine readFields_join hD hne ?_ rest
    have hlen := @length_le_join D fields
    rw [List.length_append]
    omega

theorem writeRow_ne_nil (hD : D.Readable) (fields : List (List Char)) (rest : List Char) :
    D.writeRow fields ++ rest ≠ [] := by
  unfold Dialect.writeRow
  rw [List.append_assoc]
  exact List.append_ne_nil_of_right_ne_nil _ (List.append_ne_nil_of_left_ne_nil hD.2.2.2 _)

theorem write_cons (D : Dialect) (fields : List (List Char)) (rows : List (List (List Char))) :
    D.write (fields :: rows) = D.writeRow fields ++ D.write rows := List.flatMap_cons

theorem length_le_write (hD : D.Readable) (rows : List (List (List Char))) :
    rows.length ≤ (D.write rows).length := by
  induction rows with
  | nil => exact Nat.zero_le _
  | cons fields rows ih =>
      have hpos := List.length_pos_of_ne_nil (writeRow_ne_nil hD fields [])
      rw [List.append_nil] at hpos
      rw [write_cons, List.length_cons, List.length_append]
      omega

/-- What was written is read back, with the quotes. -/
theorem read_write (hD : D.Readable) (rows : List (List (List Char))) :
    D.read (D.write rows) = some (rows.map D.tokens) := by
  have hrows : ∀ n, rows.length < n → D.readRows n (D.write rows) = some (rows.map D.tokens) := by
    induction rows with
    | nil =>
        intro n hn
        obtain ⟨n, rfl⟩ : ∃ k, n = k + 1 := ⟨n - 1, by omega⟩
        rfl
    | cons fields rows ih =>
        intro n hn
        obtain ⟨n, rfl⟩ : ∃ k, n = k + 1 := ⟨n - 1, by omega⟩
        rw [List.length_cons] at hn
        rw [write_cons, Dialect.readRows, if_neg (writeRow_ne_nil hD fields _), readRow_write hD]
        show (D.readRows n (D.write rows) >>= fun rows => some (D.tokens fields :: rows)) = _
        rw [ih n (by omega)]
        rfl
  have hlen := length_le_write hD rows
  unfold Dialect.read
  rw [if_pos hD]
  exact hrows _ (by omega)

theorem read_unreadable (hD : ¬ D.Readable) (cs : List Char) : D.read cs = none := if_neg hD

end Csv
