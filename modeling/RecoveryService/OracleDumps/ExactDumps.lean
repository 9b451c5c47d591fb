import RecoveryService.Lib.Buckets
import RecoveryService.OracleDumps.DumpFiles

/-! # When the files of a group are read, all of them and no others

The template of a group is matched without regard to case and for any number of digits, while Oracle counts in
two digits from 01; and of a group without a template only the first file is passed on.  So the files are the
right ones where the volumes are numbered as Oracle counts and no other file of the directory looks like one of
them. -/

namespace RecoveryService.OracleDumps

open Text Buckets

variable (chars : Characters)

/-! ### What is promised -/

/-- The files that the tool resolves, and those that Oracle reads, are those of the group. -/
def Exact (names directory : List Name) : Prop :=
  ∃ args spec, dumpArgs chars names = some args ∧ resolveDumpInputs chars directory args = some spec ∧
    ∀ file, (file ∈ spec.sourceFiles ↔ file ∈ names) ∧ (OracleReads spec file ↔ file ∈ names)

/-! ### The condition -/

/-- The text is the pattern, in another case perhaps. -/
def IgnoringCase (pattern text : Name) : Prop :=
  List.Forall₂ (fun c x => ∃ u, chars.upperChar c = [u] ∧ chars.same u x = true) pattern text

/-- A file with a number between the start and the suffix, and perhaps a line feed. -/
def VolumeLike (start suffix file : Name) : Prop :=
  ∃ p digits s, IgnoringCase chars start p ∧ 2 ≤ digits.length ∧ (∀ c ∈ digits, chars.isDecimal c = true) ∧
    IgnoringCase chars suffix s ∧ (file = p ++ digits ++ s ∨ file = p ++ digits ++ s ++ ['\n'])

/-- The `i`-th file of a dump set. -/
def volume (start suffix : Name) (i : ℕ) : Name := start ++ twoDigits i ++ suffix

/-- What stands before and behind the number of a volume: the digits are all of the number, and the suffix is the
extension. -/
structure Pattern (start suffix : Name) : Prop where
  line : '\n' ∉ start
  last : ∀ c, start.getLast? = some c → chars.isDecimal c = false
  ext : ∃ ext, suffix = '.' :: ext ∧ '.' ∉ ext ∧ ext ≠ []

/-- Several volumes, with two digits and numbered from 01 on without a gap. -/
structure Numbered (names directory : List Name) (start suffix : Name) : Prop where
  several : 2 ≤ names.length
  pattern : Pattern chars start suffix
  /-- No character before the number has a longer upper case, and none begins a `%U`. -/
  plain : (∀ c ∈ start, ∃ u, chars.upperChar c = [u]) ∧ isTemplate chars start = false
  numbered : ∀ name ∈ names, ∃ i, 1 ≤ i ∧ i ≤ 99 ∧ name = volume start suffix i ∧
    ∀ j, 1 ≤ j → j ≤ i → volume start suffix j ∈ names
  others : ∀ file ∈ directory, VolumeLike chars start suffix file → file ∈ names

/-- A name without `%U`, and without a volume number where it is there more than once. -/
def OneFile (names : List Name) : Prop :=
  ∃ name, (∀ other ∈ names, other = name) ∧ isTemplate chars name = false ∧
    (names.length < 2 ∨ splitVolumeName chars name = none)

def HoldsWhen (names directory : List Name) : Prop :=
  OneFile chars names ∨ ∃ start suffix, Numbered chars names directory start suffix

variable {chars}

/-! ### The tokens -/

theorem tokens_append (a b : Name) : tokens (a ++ '%' :: 'U' :: b) = tokens a ++ .digits :: tokens b := by
  induction a using tokens.induct with
  | case1 rest ih =>
      rw [List.cons_append, List.cons_append, tokens, tokens, ih]
      rfl
  | case2 c rest hnot ih =>
      rw [List.cons_append, tokens, tokens, ih]
      · rfl
      · exact hnot
      · intro rest' hc hrest
        cases rest with
        | nil =>
            rw [List.nil_append, List.cons.injEq] at hrest
            exact absurd hrest.1 (by decide)
        | cons x xs =>
            rw [List.cons_append, List.cons.injEq] at hrest
            exact hnot xs hc (hrest.1 ▸ rfl)
  | case3 => rfl

variable {a : Name}

/-- A text without `%U` is its own pattern. -/
theorem tokens_eq_map (h : Token.digits ∉ tokens a) : tokens a = a.map .literal := by
  induction a using tokens.induct with
  | case1 rest ih =>
      rw [tokens] at h
      exact absurd List.mem_cons_self h
  | case2 c rest hnot ih =>
      rw [tokens] at h ⊢
      · rw [ih fun hmem => h (List.mem_cons_of_mem _ hmem), List.map_cons]
      · exact hnot
      · exact hnot
  | case3 => rfl

theorem tokens_of_no_percent (h : '%' ∉ a) : Token.digits ∉ tokens a := by
  induction a using tokens.induct with
  | case1 rest ih => exact absurd List.mem_cons_self h
  | case2 c rest hnot ih =>
      rw [tokens]
      · rintro (_ | ⟨_, hmem⟩)
        exact ih (fun hp => h (List.mem_cons_of_mem _ hp)) hmem
      · exact hnot
  | case3 => exact List.not_mem_nil

theorem exists_of_digits_mem (h : Token.digits ∈ tokens a) : ∃ x y, a = x ++ '%' :: 'U' :: y := by
  induction a using tokens.induct with
  | case1 rest ih => exact ⟨[], rest, rfl⟩
  | case2 c rest hnot ih =>
      rw [tokens] at h
      · rcases List.mem_cons.mp h with h | h
        · cases h
        · obtain ⟨x, y, hxy⟩ := ih h
          exact ⟨c :: x, y, by rw [hxy]; rfl⟩
      · exact hnot
  | case3 => cases h

/-- Every `%` is a literal or begins a `%U`. -/
theorem count_tokens (a : Name) : (tokens a).count (.literal '%') + (tokens a).count .digits = a.count '%' := by
  induction a using tokens.induct with
  | case1 rest ih =>
      rw [tokens, List.count_cons_of_ne (by decide), List.count_cons_self, List.count_cons_self,
        List.count_cons_of_ne (by decide)]
      omega
  | case2 c rest hnot ih =>
      have hdigits : Token.literal c ≠ .digits := nofun
      rw [tokens, List.count_cons_of_ne hdigits]
      · by_cases hc : c = '%'
        · subst hc
          rw [List.count_cons_self, List.count_cons_self]
          omega
        · have hne : Token.literal c ≠ .literal '%' := fun he => hc (Token.literal.inj he)
          rw [List.count_cons_of_ne hne, List.count_cons_of_ne hc]
          exact ih
      · exact hnot
  | case3 => rfl

/-! ### The match -/

theorem decimal_percent : chars.isDecimal '%' = false := chars.decimal_ascii '%' (by decide)

variable {rest : List Token} {text : Name}

theorem matchesTokens_literal {c : Char} : matchesTokens chars (.literal c :: rest) text = true ↔
      ∃ x t, text = x :: t ∧ chars.same c x = true ∧ matchesTokens chars rest t = true := by
  cases text with
  | nil =>
      refine iff_of_false ?_ ?_
      · rw [matchesTokens]
        exact Bool.false_ne_true
      · rintro ⟨x, t, h, -⟩
        cases h
  | cons x t =>
      rw [matchesTokens, Bool.and_eq_true]
      constructor
      · exact fun h => ⟨x, t, rfl, h⟩
      · rintro ⟨y, u, h, hmatch⟩
        cases h
        exact hmatch

theorem matchesTokens_literals {pattern : Name} :
    matchesTokens chars (pattern.map .literal ++ rest) text = true ↔
      ∃ p t, text = p ++ t ∧ List.Forall₂ (fun c x => chars.same c x = true) pattern p ∧
        matchesTokens chars rest t = true := by
  induction pattern generalizing text with
  | nil =>
      constructor
      · exact fun h => ⟨[], text, rfl, .nil, h⟩
      · rintro ⟨p, t, rfl, hp, h⟩
        cases hp
        exact h
  | cons c cs ih =>
      rw [List.map_cons, List.cons_append, matchesTokens_literal]
      constructor
      · rintro ⟨x, t, rfl, hsame, hrest⟩
        obtain ⟨p, u, rfl, hp, hmatch⟩ := ih.mp hrest
        exact ⟨x :: p, u, rfl, .cons hsame hp, hmatch⟩
      · rintro ⟨p, t, rfl, hp, h⟩
        cases hp with
        | cons hsame hp => exact ⟨_, _, rfl, hsame, ih.mpr ⟨_, t, rfl, hp, h⟩⟩

theorem matchesTokens_digits : matchesTokens chars (.digits :: rest) text = true ↔
      ∃ d t, text = d ++ t ∧ 2 ≤ d.length ∧ (∀ c ∈ d, chars.isDecimal c = true) ∧
        matchesTokens chars rest t = true := by
  rw [matchesTokens, List.any_eq_true]
  constructor
  · rintro ⟨k, hk, h⟩
    rw [Bool.and_eq_true, Bool.and_eq_true, decide_eq_true_iff, List.all_eq_true] at h
    refine ⟨text.take k, text.drop k, (List.take_append_drop k text).symm, ?_, h.1.2, h.2⟩
    rw [List.length_take]
    have hlt := List.mem_range.mp hk
    omega
  · rintro ⟨d, t, rfl, hlength, hd, h⟩
    refine ⟨d.length, List.mem_range.mpr ?_, ?_⟩
    · rw [List.length_append]
      omega
    · rw [Bool.and_eq_true, Bool.and_eq_true, decide_eq_true_iff, List.all_eq_true, List.take_left, List.drop_left]
      exact ⟨⟨hlength, hd⟩, h⟩

theorem matchesTokens_nil : matchesTokens chars [] text = true ↔ text = [] := by
  rw [matchesTokens, List.isEmpty_iff]

/-- A text has the `%` of the literals that it matches. -/
theorem count_of_matchesTokens {ts : List Token} (h : matchesTokens chars ts text = true) :
    text.count '%' = ts.count (.literal '%') := by
  induction ts generalizing text with
  | nil =>
      rw [matchesTokens_nil.mp h]
      rfl
  | cons token rest ih =>
      cases token with
      | literal c =>
          obtain ⟨x, t, rfl, hsame, hrest⟩ := matchesTokens_literal.mp h
          have hiff := chars.same_percent c x hsame
          by_cases hc : c = '%'
          · rw [hiff.mp hc, hc, List.count_cons_self, List.count_cons_self, ih hrest]
          · have hne : Token.literal c ≠ .literal '%' := fun he => hc (Token.literal.inj he)
            rw [List.count_cons_of_ne hne, List.count_cons_of_ne fun hx => hc (hiff.mpr hx), ih hrest]
      | digits =>
          obtain ⟨d, t, rfl, -, hd, hrest⟩ := matchesTokens_digits.mp h
          have hnone : d.count '%' = 0 := by
            refine List.count_eq_zero.mpr fun hmem => ?_
            have hdecimal := hd '%' hmem
            rw [decimal_percent] at hdecimal
            cases hdecimal
          have hdigits : Token.digits ≠ .literal '%' := nofun
          rw [List.count_append, hnone, Nat.zero_add, List.count_cons_of_ne hdigits, ih hrest]

theorem upper_percent_eq : chars.upperChar '%' = ['%'] := chars.upper_ascii '%' (by decide)

theorem count_upperName (name : Name) : (upperName chars name).count '%' = name.count '%' := by
  induction name with
  | nil => rfl
  | cons c cs ih =>
      have hcons : upperName chars (c :: cs) = chars.upperChar c ++ upperName chars cs := rfl
      rw [hcons, List.count_append, ih]
      by_cases hc : c = '%'
      · rw [hc, upper_percent_eq, List.count_cons_self, List.count_cons_self, List.count_nil]
        omega
      · rw [List.count_cons_of_ne hc, List.count_eq_zero.mpr (chars.upper_percent c hc), Nat.zero_add]

theorem upperName_append (a b : Name) : upperName chars (a ++ b) = upperName chars a ++ upperName chars b :=
  List.flatMap_append

theorem upperName_percentU (b : Name) : upperName chars ('%' :: 'U' :: b) = '%' :: 'U' :: upperName chars b := by
  have hu : chars.upperChar 'U' = ['U'] := chars.upper_ascii 'U' (by decide)
  have hcons : upperName chars ('%' :: 'U' :: b) =
      chars.upperChar '%' ++ (chars.upperChar 'U' ++ upperName chars b) := rfl
  rw [hcons, upper_percent_eq, hu]
  rfl

variable {name : Name}

/-- What matches a template has a `%` less for each `%U`. -/
theorem count_of_templateMatches {template : Name} (h : templateMatches chars template name = true) :
    name.count '%' + (tokens (upperName chars template)).count .digits = template.count '%' := by
  have hcount := (count_tokens (upperName chars template)).trans (count_upperName template)
  rw [← hcount]
  rw [templateMatches, Bool.or_eq_true, Bool.and_eq_true, beq_iff_eq] at h
  rcases h with h | ⟨hlast, h⟩
  · rw [count_of_matchesTokens h]
  · have hname : name.dropLast ++ ['\n'] = name := List.dropLast_append_getLast? '\n' hlast
    rw [← hname, List.count_append, count_of_matchesTokens h, List.count_cons_of_ne (by decide), List.count_nil,
      Nat.add_zero]

/-- A name with a `%U` does not match itself. -/
theorem isTemplate_eq_false (h : templateMatches chars name name = true) : isTemplate chars name = false := by
  have hcount := count_of_templateMatches h
  have hzero : (tokens (upperName chars name)).count .digits = 0 := by omega
  exact decide_eq_false (List.count_eq_zero.mp hzero)

variable {start : Name}

/-- What is before the number has to have a single upper case. -/
theorem plain_of_matches {t : Name}
    (h : matchesTokens chars ((upperName chars start).map .literal ++ rest) (start ++ t) = true) :
    ∀ c ∈ start, ∃ u, chars.upperChar c = [u] := by
  induction start with
  | nil => exact nofun
  | cons c cs ih =>
      have hcons : upperName chars (c :: cs) = chars.upperChar c ++ upperName chars cs := rfl
      rw [hcons] at h
      cases hupper : chars.upperChar c with
      | nil => exact absurd hupper (chars.upper_ne_nil c)
      | cons u us =>
          rw [hupper] at h
          obtain ⟨x, t', hx, hsame, hrest⟩ := matchesTokens_literal.mp h
          rw [List.cons_append, List.cons.injEq] at hx
          obtain ⟨rfl, rfl⟩ := hx
          have hus : us = [] := by
            by_contra hne
            rw [chars.same_longer c u us hupper hne] at hsame
            cases hsame
          subst hus
          intro d hd
          rcases List.mem_cons.mp hd with rfl | hd
          · exact ⟨u, hupper⟩
          · exact ih hrest d hd

/-- A text is matched by the upper case of another where it equals it ignoring case. -/
theorem forall₂_upperName (h : ∀ c ∈ a, ∃ u, chars.upperChar c = [u]) :
    List.Forall₂ (fun c x => chars.same c x = true) (upperName chars a) text ↔ IgnoringCase chars a text := by
  induction a generalizing text with
  | nil =>
      constructor
      · rintro ⟨⟩
        exact .nil
      · rintro ⟨⟩
        exact .nil
  | cons c cs ih =>
      obtain ⟨u, hu⟩ := h c List.mem_cons_self
      have hcons : upperName chars (c :: cs) = u :: upperName chars cs := by
        have hflat : upperName chars (c :: cs) = chars.upperChar c ++ upperName chars cs := rfl
        rw [hflat, hu]
        rfl
      have hrest := fun text => @ih text fun d hd => h d (List.mem_cons_of_mem _ hd)
      rw [hcons]
      constructor
      · intro hmatch
        cases hmatch with
        | cons hsame hmatch => exact .cons ⟨u, hu, hsame⟩ ((hrest _).mp hmatch)
      · intro hmatch
        cases hmatch with
        | cons hsame hmatch =>
            obtain ⟨v, hv, hsame⟩ := hsame
            rw [hu, List.cons.injEq] at hv
            rw [← hv.1] at hsame
            exact .cons hsame ((hrest _).mpr hmatch)

theorem ignoringCase_refl (h : ∀ c ∈ a, ∃ u, chars.upperChar c = [u]) : IgnoringCase chars a a := by
  induction a with
  | nil => exact .nil
  | cons c cs ih =>
      obtain ⟨u, hu⟩ := h c List.mem_cons_self
      exact .cons ⟨u, hu, chars.same_upper c u hu⟩ (ih fun d hd => h d (List.mem_cons_of_mem _ hd))

/-! ### The names of a group -/

/-- A name with its number and its suffix. -/
structure Splits (chars : Characters) (name start digits suffix : Name) : Prop extends
    Pattern chars start suffix where
  eq : name = start ++ digits ++ suffix
  length : 2 ≤ digits.length
  decimal : ∀ c ∈ digits, chars.isDecimal c = true

variable {digits suffix : Name}

theorem splits_of_eq_some (h : splitVolumeName chars name = some (start, digits, suffix)) :
    Splits chars name start digits suffix := by
  simp only [splitVolumeName] at h
  split at h
  · cases h
  · next dot base hbase =>
      split at h
      · next hok =>
          cases h
          have hdot : dot = '.' := by
            have hhead := List.head?_dropWhile_not (fun c => decide (c ≠ '.')) name.reverse
            rw [hbase, List.head?_cons] at hhead
            simpa using hhead
          subst hdot
          have hsplit : name = base.reverse ++ '.' :: (name.reverse.takeWhile (· ≠ '.')).reverse := by
            have happend := List.takeWhile_append_dropWhile (p := fun c => decide (c ≠ '.')) (l := name.reverse)
            rw [hbase] at happend
            have hreverse := congrArg List.reverse happend
            rw [List.reverse_reverse, List.reverse_append, List.reverse_cons, List.append_assoc,
              List.singleton_append] at hreverse
            exact hreverse.symm
          have hbaseSplit : base.reverse =
              (base.dropWhile chars.isDecimal).reverse ++ (base.takeWhile chars.isDecimal).reverse := by
            rw [← List.reverse_append, List.takeWhile_append_dropWhile]
          refine ⟨⟨?_, fun c hc => ?_, _, rfl, fun hmem => ?_, ?_⟩, ?_, ?_, fun c hc => ?_⟩
          · rw [List.mem_reverse]
            exact hok.2.2
          · have hhead := List.head?_dropWhile_not chars.isDecimal base
            rw [List.getLast?_reverse] at hc
            rw [hc] at hhead
            exact hhead
          · have hnot := List.mem_takeWhile_imp (List.mem_reverse.mp hmem)
            simp at hnot
          · rw [ne_eq, List.reverse_eq_nil_iff]
            exact hok.1
          · rw [← hbaseSplit]
            exact hsplit
          · rw [List.length_reverse]
            exact hok.2.1
          · exact List.mem_takeWhile_imp (List.mem_reverse.mp hc)
      · cases h

theorem takeWhile_append_stop {p : Char → Bool} {b : Name} (ha : ∀ c ∈ a, p c = true)
    (hb : ∀ c, b.head? = some c → p c = false) : (a ++ b).takeWhile p = a ∧ (a ++ b).dropWhile p = b := by
  induction a with
  | nil =>
      cases b with
      | nil => exact ⟨rfl, rfl⟩
      | cons c cs =>
          have hc := hb c rfl
          rw [List.nil_append, List.takeWhile_cons_of_neg (by rw [hc]; exact Bool.false_ne_true),
            List.dropWhile_cons_of_neg (by rw [hc]; exact Bool.false_ne_true)]
          exact ⟨rfl, rfl⟩
  | cons c cs ih =>
      have hrest := ih fun d hd => ha d (List.mem_cons_of_mem _ hd)
      rw [List.cons_append, List.takeWhile_cons_of_pos (ha c List.mem_cons_self),
        List.dropWhile_cons_of_pos (ha c List.mem_cons_self), hrest.1, hrest.2]
      exact ⟨rfl, rfl⟩

theorem splitVolumeName_eq_some_iff :
    splitVolumeName chars name = some (start, digits, suffix) ↔ Splits chars name start digits suffix := by
  refine ⟨splits_of_eq_some, fun h => ?_⟩
  obtain ⟨ext, rfl, hdot, hext⟩ := h.ext
  have hreverse : name.reverse = ext.reverse ++ '.' :: (digits.reverse ++ start.reverse) := by
    rw [h.eq]
    simp
  have hname := @takeWhile_append_stop ext.reverse (fun c => decide (c ≠ '.'))
    ('.' :: (digits.reverse ++ start.reverse)) (fun c hc => decide_eq_true fun he =>
      hdot (he ▸ List.mem_reverse.mp hc)) (by
        intro c hc
        cases hc
        rfl)
  have hbase := @takeWhile_append_stop digits.reverse chars.isDecimal start.reverse
    (fun c hc => h.decimal c (List.mem_reverse.mp hc)) (by
      intro c hc
      rw [List.head?_reverse] at hc
      exact h.last c hc)
  rw [← hreverse] at hname
  simp only [splitVolumeName]
  rw [hname.1, hname.2]
  simp only
  rw [hbase.1, hbase.2, if_pos, List.reverse_reverse, List.reverse_reverse, List.reverse_reverse]
  refine ⟨?_, ?_, ?_⟩
  · rw [ne_eq, List.reverse_eq_nil_iff]
    exact hext
  · rw [List.length_reverse]
    exact h.length
  · rw [List.mem_reverse]
    exact h.line

theorem mem_sortedNames {names : List Name} : name ∈ sortedNames names ↔ name ∈ names :=
  List.mem_mergeSort

/-- The names have a pattern where they all split with it, in numbers of one width. -/
theorem percentUPattern_eq_some_iff {names : List Name} : percentUPattern chars names = some (start, suffix) ↔
      2 ≤ names.length ∧ ∃ width, ∀ name ∈ names, ∃ digits, Splits chars name start digits suffix ∧
        digits.length = width := by
  constructor
  · intro h
    simp only [percentUPattern] at h
    split at h
    · cases h
    · next hlength =>
        rw [not_or, Nat.not_lt, Nat.not_lt] at hlength
        have hall : ∀ name ∈ names, (splitVolumeName chars name).isSome = true :=
          List.filterMap_length_eq_length.mp (le_antisymm (List.length_filterMap_le _ _) hlength.2)
        split at h
        · cases h
        · next first digits tail rest hparsed =>
            split at h
            · next hsame =>
                cases h
                refine ⟨hlength.1, digits.length, fun name hname => ?_⟩
                obtain ⟨⟨a, d, b⟩, hsplit⟩ := Option.isSome_iff_exists.mp (hall name hname)
                have hitem := List.all_eq_true.mp hsame _ (List.mem_filterMap.mpr ⟨name, hname, hsplit⟩)
                obtain ⟨ha, hb, hwidth⟩ := of_decide_eq_true hitem
                simp only at ha hb hwidth
                rw [ha, hb] at hsplit
                exact ⟨d, splits_of_eq_some hsplit, hwidth⟩
            · cases h
  · rintro ⟨hlength, width, hall⟩
    have hparsed : (names.filterMap (splitVolumeName chars)).length = names.length := by
      refine List.filterMap_length_eq_length.mpr fun name hname => ?_
      obtain ⟨digits, hsplit, -⟩ := hall name hname
      rw [splitVolumeName_eq_some_iff.mpr hsplit]
      rfl
    have hitem : ∀ item ∈ names.filterMap (splitVolumeName chars),
        item.1 = start ∧ item.2.2 = suffix ∧ item.2.1.length = width := by
      intro item hmem
      obtain ⟨name, hname, hsome⟩ := List.mem_filterMap.mp hmem
      obtain ⟨digits, hsplit, hwidth⟩ := hall name hname
      rw [splitVolumeName_eq_some_iff.mpr hsplit] at hsome
      cases hsome
      exact ⟨rfl, rfl, hwidth⟩
    simp only [percentUPattern]
    rw [if_neg (by omega)]
    cases hcases : names.filterMap (splitVolumeName chars) with
    | nil =>
        rw [hcases, List.length_nil] at hparsed
        omega
    | cons item rest =>
        obtain ⟨first, digits, tail⟩ := item
        rw [hcases] at hitem
        obtain ⟨rfl, rfl, hwidth⟩ := hitem _ List.mem_cons_self
        simp only
        rw [if_pos]
        refine List.all_eq_true.mpr fun other hother => decide_eq_true ?_
        obtain ⟨ha, hb, hc⟩ := hitem other hother
        exact ⟨ha, hb, hc.trans hwidth.symm⟩

theorem eq_of_lastDot {b e f : Name} (h : a ++ '.' :: e = b ++ '.' :: f) (he : '.' ∉ e) (hf : '.' ∉ f) :
    e = f := by
  rcases List.append_eq_append_iff.mp h with ⟨c, -, hc⟩ | ⟨c, -, hc⟩
  · cases c with
    | nil =>
        rw [List.nil_append, List.cons.injEq] at hc
        exact hc.2
    | cons x xs =>
        rw [List.cons_append, List.cons.injEq] at hc
        exact absurd (hc.2 ▸ List.mem_append_right _ List.mem_cons_self) he
  · cases c with
    | nil =>
        rw [List.nil_append, List.cons.injEq] at hc
        exact hc.2.symm
    | cons x xs =>
        rw [List.cons_append, List.cons.injEq] at hc
        exact absurd (hc.2 ▸ List.mem_append_right _ List.mem_cons_self) hf

/-- A character whose lower case is an ASCII letter or dot. -/
theorem ascii_of_toLower {c t : Char} (h : c.toLower = t) (ht : t.toNat < 128) (hne : t ≠ '%') :
    c.toNat < 128 ∧ c ≠ '%' := by
  have hlower := toLower_toNat c
  rw [h] at hlower
  refine ⟨?_, ?_⟩
  · split_ifs at hlower <;> omega
  · rintro rfl
    exact hne (h.symm.trans (by decide))

/-- The suffix of a dump is `.dmp`, in some case. -/
theorem suffix_of_isDump {ext : Name} (h : isDump name = true) (hname : name = start ++ '.' :: ext)
    (hext : '.' ∉ ext) : ∀ c ∈ '.' :: ext, c.toNat < 128 ∧ c ≠ '%' := by
  have hlower : (name.drop (name.length - 4)).map Char.toLower = ['.', 'd', 'm', 'p'] := beq_iff_eq.mp h
  obtain ⟨x, xs, hlast, hx, hxs⟩ := List.map_eq_cons_iff.mp hlower
  have hdot : x = '.' := by
    have hnat := toLower_toNat x
    rw [hx] at hnat
    have hvalue : '.'.toNat = 46 := rfl
    rw [← Char.toNat_inj]
    split_ifs at hnat <;> omega
  have htail : ∀ c ∈ xs, c.toLower ∈ ['d', 'm', 'p'] := fun c hc => hxs ▸ List.mem_map_of_mem hc
  have hnodot : '.' ∉ xs := fun hmem => absurd (htail '.' hmem) (by decide)
  have hsame : ext = xs := by
    have hwhole := List.take_append_drop (name.length - 4) name
    rw [hlast, hdot, hname] at hwhole
    exact (eq_of_lastDot hwhole hnodot hext).symm
  intro c hc
  rcases List.mem_cons.mp hc with rfl | hc
  · exact ⟨by decide, by decide⟩
  · have hmem := htail c (hsame ▸ hc)
    simp only [List.mem_cons, List.not_mem_nil, or_false] at hmem
    rcases hmem with hd | hm | hp
    · exact ascii_of_toLower hd (by decide) (by decide)
    · exact ascii_of_toLower hm (by decide) (by decide)
    · exact ascii_of_toLower hp (by decide) (by decide)

/-! ### The groups -/

theorem addToGroup_eq (filename : Name) (groups : List (GroupId × List Name)) :
    addToGroup chars filename groups = add (groupId chars filename) filename groups := by
  induction groups with
  | nil => rfl
  | cons group groups ih =>
      rw [addToGroup, add, ih]
      split_ifs with hid
      · rw [hid]
      · rfl

theorem grouped_classifyArtifacts (files : List Name) :
    Grouped (groupId chars) (files.filter isDump) (classifyArtifacts chars files) := by
  have heq : classifyArtifacts chars files = groupBy (groupId chars) (files.filter isDump) := by
    unfold classifyArtifacts groupBy
    simp only [addToGroup_eq]
  exact heq ▸ grouped_groupBy _ _

/-- A group has dumps, and only dumps. -/
def DumpGroup (group : GroupId × List Name) : Prop := group.2 ≠ [] ∧ ∀ name ∈ group.2, isDump name = true

theorem dumpGroup_of_mem {filenames : List Name} {group : GroupId × List Name}
    (h : group ∈ classifyArtifacts chars filenames) : DumpGroup group := by
  have hgrouped := @grouped_classifyArtifacts chars filenames
  exact ⟨hgrouped.nonempty group h, fun name hname => (List.mem_filter.mp (hgrouped.mem_items h hname)).2⟩

/-! ### The template of a group -/

variable {names directory : List Name} {start suffix : Name}

theorem tokens_template (hsuffix : '%' ∉ suffix) : tokens (upperName chars (start ++ '%' :: 'U' :: suffix)) =
      tokens (upperName chars start) ++ .digits :: (upperName chars suffix).map .literal := by
  have hupper : '%' ∉ upperName chars suffix := by
    rw [← List.count_eq_zero, count_upperName, List.count_eq_zero]
    exact hsuffix
  rw [upperName_append, upperName_percentU, tokens_append, tokens_eq_map (tokens_of_no_percent hupper)]

theorem matchesTokens_template (hplain : ∀ c ∈ start, ∃ u, chars.upperChar c = [u])
    (hsuffix : ∀ c ∈ suffix, ∃ u, chars.upperChar c = [u]) :
    matchesTokens chars ((upperName chars start).map .literal ++ .digits :: (upperName chars suffix).map .literal)
        text = true ↔
      ∃ p d s, IgnoringCase chars start p ∧ 2 ≤ d.length ∧ (∀ c ∈ d, chars.isDecimal c = true) ∧
        IgnoringCase chars suffix s ∧ text = p ++ d ++ s := by
  have hend : ∀ t, matchesTokens chars ((upperName chars suffix).map .literal) t = true ↔
      IgnoringCase chars suffix t := by
    intro t
    rw [← forall₂_upperName hsuffix, ← List.append_nil ((upperName chars suffix).map Token.literal),
      matchesTokens_literals]
    constructor
    · rintro ⟨p, rest, rfl, hp, hrest⟩
      rw [matchesTokens_nil.mp hrest, List.append_nil]
      exact hp
    · exact fun hp => ⟨t, [], (List.append_nil t).symm, hp, matchesTokens_nil.mpr rfl⟩
  rw [matchesTokens_literals]
  constructor
  · rintro ⟨p, t, rfl, hp, hrest⟩
    obtain ⟨d, s, rfl, hlength, hd, hs⟩ := matchesTokens_digits.mp hrest
    exact ⟨p, d, s, (forall₂_upperName hplain).mp hp, hlength, hd, (hend s).mp hs, (List.append_assoc p d s).symm⟩
  · rintro ⟨p, d, s, hp, hlength, hd, hs, rfl⟩
    exact ⟨p, d ++ s, List.append_assoc p d s, (forall₂_upperName hplain).mpr hp,
      matchesTokens_digits.mpr ⟨d, s, rfl, hlength, hd, (hend s).mpr hs⟩⟩

/-- What stands before the number, with what is known of the suffix. -/
structure Plain (chars : Characters) (start suffix : Name) : Prop where
  single : ∀ c ∈ start, ∃ u, chars.upperChar c = [u]
  template : isTemplate chars start = false
  ending : ∀ c ∈ suffix, ∃ u, chars.upperChar c = [u]
  percent : '%' ∉ suffix

theorem Plain.tokens_eq (h : Plain chars start suffix) :
    tokens (upperName chars (start ++ '%' :: 'U' :: suffix)) =
      (upperName chars start).map .literal ++ .digits :: (upperName chars suffix).map .literal := by
  rw [tokens_template h.percent, tokens_eq_map (of_decide_eq_false h.template)]

theorem Plain.templateMatches_iff (h : Plain chars start suffix) {file : Name} :
    templateMatches chars (start ++ '%' :: 'U' :: suffix) file = true ↔ VolumeLike chars start suffix file := by
  rw [templateMatches, h.tokens_eq, Bool.or_eq_true, Bool.and_eq_true, beq_iff_eq,
    matchesTokens_template h.single h.ending, matchesTokens_template h.single h.ending]
  constructor
  · rintro (⟨p, d, s, hp, hlength, hd, hs, rfl⟩ | ⟨hlast, p, d, s, hp, hlength, hd, hs, heq⟩)
    · exact ⟨p, d, s, hp, hlength, hd, hs, .inl rfl⟩
    · refine ⟨p, d, s, hp, hlength, hd, hs, .inr ?_⟩
      rw [← heq]
      exact (List.dropLast_append_getLast? _ hlast).symm
  · rintro ⟨p, d, s, hp, hlength, hd, hs, rfl | rfl⟩
    · exact .inl ⟨p, d, s, hp, hlength, hd, hs, rfl⟩
    · refine .inr ⟨List.getLast?_concat, p, d, s, hp, hlength, hd, hs, ?_⟩
      exact List.dropLast_concat

/-- A volume that the template of its group matches shows what stands before the number. -/
theorem plain_of_templateMatches (hsplit : Splits chars name start digits suffix)
    (hsuffix : ∀ c ∈ suffix, c.toNat < 128 ∧ c ≠ '%')
    (h : templateMatches chars (start ++ '%' :: 'U' :: suffix) name = true) : Plain chars start suffix := by
  have hpercent : '%' ∉ suffix := fun hmem => (hsuffix '%' hmem).2 rfl
  have hdigits : '%' ∉ digits := fun hmem => by
    have hdecimal := hsplit.decimal '%' hmem
    rw [decimal_percent] at hdecimal
    cases hdecimal
  have hliterals : ((upperName chars suffix).map Token.literal).count .digits = 0 := by
    refine List.count_eq_zero.mpr fun hmem => ?_
    obtain ⟨c, -, hc⟩ := List.mem_map.mp hmem
    cases hc
  have htemplate : Token.digits ∉ tokens (upperName chars start) := by
    have hcount := count_of_templateMatches h
    rw [hsplit.eq, tokens_template hpercent, List.count_append, List.count_append, List.count_append,
      List.count_append, List.count_cons_self, List.count_cons_self, List.count_cons_of_ne (by decide), hliterals,
      List.count_eq_zero.mpr hdigits] at hcount
    exact List.count_eq_zero.mp (by omega)
  refine ⟨?_, decide_eq_false htemplate, fun c hc => ⟨_, chars.upper_ascii c (hsuffix c hc).1⟩, hpercent⟩
  rw [templateMatches, tokens_template hpercent, tokens_eq_map htemplate, Bool.or_eq_true, Bool.and_eq_true,
    beq_iff_eq, hsplit.eq] at h
  rcases h with h | ⟨-, h⟩
  · rw [List.append_assoc] at h
    exact plain_of_matches h
  · obtain ⟨ext, rfl, -⟩ := hsplit.ext
    rw [List.append_assoc, List.dropLast_append_of_ne_nil (by simp)] at h
    exact plain_of_matches h

/-! ### The expansion -/

theorem expand_of_no_digits (h : Token.digits ∉ tokens a) (i : ℕ) : expand i a = a := by
  induction a using tokens.induct with
  | case1 rest ih =>
      rw [tokens] at h
      exact absurd List.mem_cons_self h
  | case2 c rest hnot ih =>
      rw [tokens] at h
      · rw [expand]
        · rw [ih fun hmem => h (List.mem_cons_of_mem _ hmem)]
        · exact hnot
      · exact hnot
  | case3 => rfl

theorem expand_append (h : Token.digits ∉ tokens a) (b : Name) (i : ℕ) :
    expand i (a ++ '%' :: 'U' :: b) = a ++ twoDigits i ++ expand i b := by
  induction a using tokens.induct with
  | case1 rest ih =>
      rw [tokens] at h
      exact absurd List.mem_cons_self h
  | case2 c rest hnot ih =>
      rw [tokens] at h
      · rw [List.cons_append, expand, ih fun hmem => h (List.mem_cons_of_mem _ hmem)]
        · rfl
        · intro rest' hc hrest
          cases rest with
          | nil =>
              rw [List.nil_append, List.cons.injEq] at hrest
              exact absurd hrest.1 (by decide)
          | cons x xs =>
              rw [List.cons_append, List.cons.injEq] at hrest
              exact hnot xs hc (hrest.1 ▸ rfl)
      · exact hnot
  | case3 => rfl

/-- A `%U` in a name is one in its upper case. -/
theorem no_digits_of_upper (h : isTemplate chars a = false) : Token.digits ∉ tokens a := by
  intro hmem
  obtain ⟨x, y, rfl⟩ := exists_of_digits_mem hmem
  have hnot : Token.digits ∉ tokens (upperName chars (x ++ '%' :: 'U' :: y)) := of_decide_eq_false h
  rw [upperName_append, upperName_percentU, tokens_append] at hnot
  exact hnot (List.mem_append_right _ List.mem_cons_self)

theorem Plain.expand_eq (h : Plain chars start suffix) (i : ℕ) :
    expand i (start ++ '%' :: 'U' :: suffix) = volume start suffix i := by
  rw [expand_append (no_digits_of_upper h.template), expand_of_no_digits (tokens_of_no_percent h.percent)]
  rfl

/-! ### A group with a pattern -/

/-- The template of a pattern. -/
def patternTemplate (start suffix : Name) : Name := start ++ '%' :: 'U' :: suffix

theorem digit_decimal {d : ℕ} (h : d < 10) : chars.isDecimal (digit d) = true := by
  have hascii : ∀ d < 10, (digit d).toNat < 128 ∧ (digit d).isDigit = true := by decide
  rw [chars.decimal_ascii _ (hascii d h).1]
  exact (hascii d h).2

theorem Splits.ascii (h : Splits chars name start digits suffix) (hdump : isDump name = true) :
    ∀ c ∈ suffix, c.toNat < 128 ∧ c ≠ '%' := by
  obtain ⟨ext, rfl, hdot, -⟩ := h.ext
  exact suffix_of_isDump hdump h.eq hdot

theorem Numbered.splits (h : Numbered chars names directory start suffix) (hname : name ∈ names) :
    ∃ i, Splits chars name start (twoDigits i) suffix := by
  obtain ⟨i, -, -, heq, -⟩ := h.numbered name hname
  refine ⟨i, h.pattern, heq, le_refl 2, fun c hc => ?_⟩
  rcases List.mem_cons.mp hc with rfl | hc
  · exact digit_decimal (Nat.mod_lt _ (by decide))
  · rw [List.mem_singleton.mp hc]
    exact digit_decimal (Nat.mod_lt _ (by decide))

theorem isTemplate_patternTemplate : isTemplate chars (patternTemplate start suffix) = true := by
  unfold isTemplate patternTemplate
  rw [upperName_append, upperName_percentU, tokens_append]
  exact decide_eq_true (List.mem_append_right _ List.mem_cons_self)

/-- Of a group with a pattern the tool takes what matches the template. -/
theorem exact_iff_of_pattern (hpattern : percentUPattern chars (sortedNames names) = some (start, suffix))
    (hne : names ≠ []) :
    Exact chars names directory ↔ ∃ spec : DumpSpec, spec.dumpfileArg = patternTemplate start suffix ∧
      (∀ file, file ∈ spec.sourceFiles ↔
        file ∈ directory ∧ templateMatches chars (patternTemplate start suffix) file = true) ∧
      ∀ file, (file ∈ spec.sourceFiles ↔ file ∈ names) ∧ (OracleReads spec file ↔ file ∈ names) := by
  have hargs : dumpArgs chars names = some (.dumpfile (patternTemplate start suffix)) := by
    unfold dumpArgs patternTemplate
    simp only
    rw [hpattern]
    simp
  have hresolve : resolveDumpInputs chars directory (.dumpfile (patternTemplate start suffix)) =
      (let found := sortedNames (directory.filter (templateMatches chars (patternTemplate start suffix)))
      if found = [] then none
      else some { sourceFiles := found, dumpfileArg := patternTemplate start suffix }) := by
    unfold resolveDumpInputs
    simp only
    rw [if_pos isTemplate_patternTemplate]
  have hfound : ∀ file, file ∈ sortedNames (directory.filter (templateMatches chars (patternTemplate start suffix))) ↔
      file ∈ directory ∧ templateMatches chars (patternTemplate start suffix) file = true := by
    intro file
    rw [mem_sortedNames, List.mem_filter]
  constructor
  · rintro ⟨args, spec, hsome, hspec, hexact⟩
    rw [hargs] at hsome
    cases hsome
    rw [hresolve] at hspec
    simp only at hspec
    split at hspec
    · cases hspec
    · cases hspec
      exact ⟨_, rfl, hfound, hexact⟩
  · rintro ⟨spec, harg, hfiles, hexact⟩
    have hreads : ∀ other : DumpSpec, other.dumpfileArg = spec.dumpfileArg →
        (∀ file, file ∈ other.sourceFiles ↔ file ∈ spec.sourceFiles) →
          ∀ file, OracleReads other file ↔ OracleReads spec file := by
      intro other hsame hmem file
      unfold OracleReads
      simp only [hsame, hmem]
    obtain ⟨name, hname⟩ := List.exists_mem_of_ne_nil _ hne
    have hin := (hfound name).mpr ((hfiles name).mp ((hexact name).1.mpr hname))
    refine ⟨_, _, hargs, hresolve.trans (if_neg (List.ne_nil_of_mem hin)), fun file => ?_⟩
    have hmem := fun file => (hfound file).trans (hfiles file).symm
    exact ⟨(hmem file).trans (hexact file).1, (hreads _ harg.symm hmem file).trans (hexact file).2⟩

theorem Numbered.isPlain (h : Numbered chars names directory start suffix)
    (hdumps : ∀ name ∈ names, isDump name = true) : Plain chars start suffix := by
  obtain ⟨name, hname⟩ := List.exists_mem_of_length_pos (lt_of_lt_of_le (by decide) h.several)
  obtain ⟨i, hsplit⟩ := h.splits hname
  have hascii := hsplit.ascii (hdumps name hname)
  exact ⟨h.plain.1, h.plain.2, fun c hc => ⟨_, chars.upper_ascii c (hascii c hc).1⟩,
    fun hmem => (hascii '%' hmem).2 rfl⟩

/-- Volumes numbered as Oracle counts are read. -/
theorem exact_of_numbered (h : Numbered chars names directory start suffix)
    (hdumps : ∀ name ∈ names, isDump name = true) (hdirectory : ∀ name ∈ names, name ∈ directory) :
    Exact chars names directory := by
  have hplain := h.isPlain hdumps
  have hpattern : percentUPattern chars (sortedNames names) = some (start, suffix) := by
    refine percentUPattern_eq_some_iff.mpr ⟨?_, 2, fun name hname => ?_⟩
    · rw [sortedNames, List.length_mergeSort]
      exact h.several
    · obtain ⟨i, hsplit⟩ := h.splits (mem_sortedNames.mp hname)
      exact ⟨_, hsplit, rfl⟩
  have hne : names ≠ [] := by
    rintro rfl
    exact absurd h.several (by decide)
  have hself : ∀ name ∈ names, VolumeLike chars start suffix name := by
    intro name hname
    obtain ⟨i, hsplit⟩ := h.splits hname
    exact ⟨start, _, suffix, ignoringCase_refl hplain.single, hsplit.length, hsplit.decimal,
      ignoringCase_refl hplain.ending, .inl hsplit.eq⟩
  have hfiles : ∀ file, file ∈ directory.filter (templateMatches chars (patternTemplate start suffix)) ↔
      file ∈ names := by
    intro file
    rw [List.mem_filter, patternTemplate, hplain.templateMatches_iff]
    constructor
    · exact fun hfile => h.others file hfile.1 hfile.2
    · exact fun hname => ⟨hdirectory file hname, hself file hname⟩
  refine (exact_iff_of_pattern hpattern hne).mpr ⟨⟨directory.filter
    (templateMatches chars (patternTemplate start suffix)), patternTemplate start suffix⟩, rfl,
    fun file => List.mem_filter, fun file => ⟨hfiles file, ?_⟩⟩
  constructor
  · rintro ⟨i, hone, hle, rfl, hall⟩
    exact (hfiles _).mp (hall i hone (le_refl i))
  · intro hname
    obtain ⟨i, hone, hle, heq, hall⟩ := h.numbered file hname
    refine ⟨i, hone, hle, heq.trans (hplain.expand_eq i).symm, fun j hj hji => (hfiles _).mpr ?_⟩
    have hvolume : expand j (patternTemplate start suffix) = volume start suffix j := hplain.expand_eq j
    rw [hvolume]
    exact hall j hj hji

theorem numbered_of_exact (hpattern : percentUPattern chars (sortedNames names) = some (start, suffix))
    (hdumps : ∀ name ∈ names, isDump name = true) (h : Exact chars names directory) :
    Numbered chars names directory start suffix := by
  obtain ⟨hseveral, width, hsplits⟩ := percentUPattern_eq_some_iff.mp hpattern
  rw [sortedNames, List.length_mergeSort] at hseveral
  obtain ⟨name, hname⟩ := List.exists_mem_of_length_pos (lt_of_lt_of_le (by decide) hseveral)
  obtain ⟨digits, hsplit, -⟩ := hsplits name (mem_sortedNames.mpr hname)
  obtain ⟨spec, harg, hfiles, hexact⟩ := (exact_iff_of_pattern hpattern (List.ne_nil_of_mem hname)).mp h
  have hmatch := ((hfiles name).mp ((hexact name).1.mpr hname)).2
  have hplain := plain_of_templateMatches hsplit (hsplit.ascii (hdumps name hname)) hmatch
  refine ⟨hseveral, hsplit.toPattern, ⟨hplain.single, hplain.template⟩, fun other hother => ?_,
    fun file hfile hlike => ?_⟩
  · obtain ⟨i, hone, hle, heq, hall⟩ := (hexact other).2.mpr hother
    rw [harg, patternTemplate, hplain.expand_eq] at heq
    refine ⟨i, hone, hle, heq, fun j hj hji => ?_⟩
    have hin := (hexact _).1.mp (hall j hj hji)
    rw [harg, patternTemplate, hplain.expand_eq] at hin
    exact hin
  · exact (hexact file).1.mp ((hfiles file).mpr ⟨hfile, hplain.templateMatches_iff.mpr hlike⟩)

/-! ### A group without one -/

/-- Of a group without a pattern the first file is passed on. -/
theorem exact_iff_of_none (hnone : percentUPattern chars (sortedNames names) = none)
    (hne : names ≠ []) (hdirectory : ∀ name ∈ names, name ∈ directory) :
    Exact chars names directory ↔ ∃ name, (∀ other ∈ names, other = name) ∧ isTemplate chars name = false := by
  obtain ⟨first, hhead⟩ : ∃ first, (sortedNames names).head? = some first := by
    cases hcases : sortedNames names with
    | nil =>
        obtain ⟨name, hname⟩ := List.exists_mem_of_ne_nil _ hne
        have hmem := mem_sortedNames.mpr hname
        rw [hcases] at hmem
        cases hmem
    | cons first rest => exact ⟨first, rfl⟩
  have hfirst : first ∈ names := mem_sortedNames.mp (List.mem_of_mem_head? hhead)
  have hargs : dumpArgs chars names = some (.dump first) := by
    unfold dumpArgs
    simp only
    rw [hnone, hhead]
    rfl
  constructor
  · rintro ⟨args, spec, hsome, hspec, hexact⟩
    rw [hargs] at hsome
    cases hsome
    simp only [resolveDumpInputs] at hspec
    split at hspec
    · next htemplate =>
        -- a name with `%U` is not among what matches it
        split at hspec
        · cases hspec
        · cases hspec
          have hmem := (hexact first).1.mpr hfirst
          rw [mem_sortedNames, List.mem_filter] at hmem
          rw [isTemplate_eq_false hmem.2] at htemplate
          cases htemplate
    · next htemplate =>
        split at hspec
        · cases hspec
          refine ⟨first, fun other hother => ?_, Bool.not_eq_true _ ▸ htemplate⟩
          exact List.mem_singleton.mp ((hexact other).1.mpr hother)
        · cases hspec
  · rintro ⟨name, hall, htemplate⟩
    obtain rfl := hall first hfirst
    refine ⟨_, { sourceFiles := [first], dumpfileArg := first }, hargs, ?_, fun file => ?_⟩
    · simp only [resolveDumpInputs]
      rw [if_neg (Bool.eq_false_iff.mp htemplate), if_pos (hdirectory first hfirst)]
    · have hfile : file ∈ [first] ↔ file ∈ names := by
        rw [List.mem_singleton]
        exact ⟨fun heq => heq ▸ hfirst, hall file⟩
      have hexpand := expand_of_no_digits (no_digits_of_upper htemplate)
      refine ⟨hfile, ?_⟩
      unfold OracleReads
      simp only [hexpand]
      constructor
      · rintro ⟨i, hone, -, rfl, hmem⟩
        exact hfirst
      · intro hname
        exact ⟨1, le_refl 1, by decide, hall file hname, fun j _ _ => List.mem_singleton_self _⟩

theorem percentUPattern_of_oneFile (h : OneFile chars names) : percentUPattern chars (sortedNames names) = none := by
  obtain ⟨name, hall, -, hone⟩ := h
  cases hpattern : percentUPattern chars (sortedNames names) with
  | none => rfl
  | some parts =>
      obtain ⟨hseveral, width, hsplits⟩ := percentUPattern_eq_some_iff.mp hpattern
      obtain ⟨other, hother⟩ := List.exists_mem_of_length_pos (lt_of_lt_of_le (by decide) hseveral)
      obtain ⟨digits, hsplit, -⟩ := hsplits other hother
      rw [hall other (mem_sortedNames.mp hother)] at hsplit
      rw [sortedNames, List.length_mergeSort] at hseveral
      rcases hone with hlt | hnone
      · omega
      · rw [splitVolumeName_eq_some_iff.mpr hsplit] at hnone
        cases hnone

/-! ### The files are exact -/

/-- The tool and Oracle read the files of a group and no others exactly where it is one file without `%U`, or
volumes numbered in two digits from 01 without another file in the directory that looks like one. -/
theorem exact_iff {filenames : List Name} {group : GroupId × List Name}
    (hgroup : group ∈ classifyArtifacts chars filenames) (hdirectory : ∀ name ∈ group.2, name ∈ directory) :
    Exact chars group.2 directory ↔ HoldsWhen chars group.2 directory := by
  obtain ⟨hne, hdumps⟩ := dumpGroup_of_mem hgroup
  constructor
  · intro h
    cases hpattern : percentUPattern chars (sortedNames group.2) with
    | some parts => exact .inr ⟨_, _, numbered_of_exact hpattern hdumps h⟩
    | none =>
        obtain ⟨name, hall, htemplate⟩ := (exact_iff_of_none hpattern hne hdirectory).mp h
        refine .inl ⟨name, hall, htemplate, ?_⟩
        by_contra hnot
        rw [not_or, Nat.not_lt] at hnot
        obtain ⟨⟨start, digits, suffix⟩, hsplit⟩ := Option.ne_none_iff_exists'.mp hnot.2
        have hsome : percentUPattern chars (sortedNames group.2) = some (start, suffix) := by
          refine percentUPattern_eq_some_iff.mpr ⟨?_, digits.length, fun other hother => ?_⟩
          · rw [sortedNames, List.length_mergeSort]
            exact hnot.1
          · rw [hall other (mem_sortedNames.mp hother)]
            exact ⟨digits, splits_of_eq_some hsplit, rfl⟩
        rw [hpattern] at hsome
        cases hsome
  · rintro (hone | ⟨start, suffix, hnumbered⟩)
    · have hpattern := percentUPattern_of_oneFile hone
      obtain ⟨name, hall, htemplate, -⟩ := hone
      exact (exact_iff_of_none hpattern hne hdirectory).mpr ⟨name, hall, htemplate⟩
    · exact exact_of_numbered hnumbered hdumps hdirectory

theorem toUpper_percent {c : Char} (h : c.toUpper = '%') : c = '%' := by
  have hupper := toUpper_toNat c
  rw [h] at hupper
  have hvalue : '%'.toNat = 37 := rfl
  rw [← Char.toNat_inj]
  split_ifs at hupper <;> omega

/-- The characters of names in ASCII. -/
def asciiCharacters : Characters where
  isDecimal := Char.isDigit
  upperChar c := [c.toUpper]
  same u x := u == x.toUpper
  decimal_ascii _ _ := rfl
  upper_ascii _ _ := rfl
  upper_percent c hc := by
    rw [List.mem_singleton]
    exact fun h => hc (toUpper_percent h.symm)
  same_percent c x h := by
    have hsame : c = x.toUpper := beq_iff_eq.mp h
    constructor
    · intro hc
      exact toUpper_percent (hsame.symm.trans hc)
    · rintro rfl
      rw [hsame]
      decide
  same_upper c u h := by
    rw [List.cons.injEq] at h
    exact beq_iff_eq.mpr h.1.symm
  same_longer c u us h hus := by
    rw [List.cons.injEq] at h
    exact absurd h.2.symm hus
  upper_ne_nil _ := List.cons_ne_nil _ _

/-- Two volumes, with a log beside them. -/
theorem exact_two_volumes :
    classifyArtifacts asciiCharacters ["exp_01.dmp".toList, "exp_02.dmp".toList, "exp.log".toList] =
        [(.multi "exp".toList, ["exp_01.dmp".toList, "exp_02.dmp".toList])] ∧
      Exact asciiCharacters ["exp_01.dmp".toList, "exp_02.dmp".toList]
        ["exp_01.dmp".toList, "exp_02.dmp".toList, "exp.log".toList] := by
  have hgroups : classifyArtifacts asciiCharacters
      ["exp_01.dmp".toList, "exp_02.dmp".toList, "exp.log".toList] =
        [(.multi "exp".toList, ["exp_01.dmp".toList, "exp_02.dmp".toList])] := by decide +kernel
  have hgroup : (GroupId.multi "exp".toList, ["exp_01.dmp".toList, "exp_02.dmp".toList]) ∈
      classifyArtifacts asciiCharacters ["exp_01.dmp".toList, "exp_02.dmp".toList, "exp.log".toList] := by
    rw [hgroups]
    exact List.mem_singleton_self _
  have hdirectory : ∀ name ∈ ["exp_01.dmp".toList, "exp_02.dmp".toList],
      name ∈ ["exp_01.dmp".toList, "exp_02.dmp".toList, "exp.log".toList] := by decide +kernel
  refine ⟨hgroups, (exact_iff hgroup hdirectory).mpr (.inr ⟨"exp_".toList, ".dmp".toList, le_refl 2, ?_, ?_, ?_, ?_⟩)⟩
  · have hlast : "exp_".toList.getLast? = some '_' := by decide +kernel
    refine ⟨by decide +kernel, fun c hc => ?_, "dmp".toList, by decide +kernel, by decide +kernel,
      by decide +kernel⟩
    obtain rfl : '_' = c := Option.some.inj (hlast.symm.trans hc)
    decide
  · exact ⟨fun c _ => ⟨_, rfl⟩, by decide +kernel⟩
  · intro name hname
    rcases List.mem_cons.mp hname with rfl | hname
    · refine ⟨1, le_refl 1, by decide, by decide +kernel, fun j hone hle => ?_⟩
      obtain rfl : j = 1 := le_antisymm hle hone
      decide +kernel
    · obtain rfl := List.mem_singleton.mp hname
      refine ⟨2, by decide, by decide, by decide +kernel, fun j hone hle => ?_⟩
      obtain rfl | rfl : j = 1 ∨ j = 2 := by omega
      · decide +kernel
      · decide +kernel
  · rintro file hfile ⟨p, digits, s, hp, hlength, -, hs, heq⟩
    have hlonger : 10 ≤ file.length := by
      have hstart : 4 = p.length := hp.length_eq
      have hend : 4 = s.length := hs.length_eq
      rcases heq with rfl | rfl
      · rw [List.length_append, List.length_append]
        omega
      · rw [List.length_append, List.length_append, List.length_append]
        omega
    have hfiles : ∀ file ∈ ["exp_01.dmp".toList, "exp_02.dmp".toList, "exp.log".toList], 10 ≤ file.length →
        file ∈ ["exp_01.dmp".toList, "exp_02.dmp".toList] := by decide +kernel
    exact hfiles file hfile hlonger

/-- A second volume whose extension is in the other case is left out. -/
theorem other_case_left_out : (GroupId.multi "exp".toList, ["exp_01.dmp".toList, "exp_02.DMP".toList]) ∈
        classifyArtifacts asciiCharacters ["exp_01.dmp".toList, "exp_02.DMP".toList] ∧
      ¬ Exact asciiCharacters ["exp_01.dmp".toList, "exp_02.DMP".toList]
        ["exp_01.dmp".toList, "exp_02.DMP".toList] := by
  refine ⟨by decide +kernel, fun h => ?_⟩
  have hnone : percentUPattern asciiCharacters (sortedNames ["exp_01.dmp".toList, "exp_02.DMP".toList]) = none := by
    cases hpattern : percentUPattern asciiCharacters (sortedNames ["exp_01.dmp".toList, "exp_02.DMP".toList]) with
    | none => rfl
    | some parts =>
        obtain ⟨-, width, hsplits⟩ := percentUPattern_eq_some_iff.mp hpattern
        obtain ⟨d, hfirst, -⟩ := hsplits "exp_01.dmp".toList (mem_sortedNames.mpr (by decide +kernel))
        obtain ⟨e, hsecond, -⟩ := hsplits "exp_02.DMP".toList (mem_sortedNames.mpr (by decide +kernel))
        have hdmp : splitVolumeName asciiCharacters "exp_01.dmp".toList =
            some ("exp_".toList, "01".toList, ".dmp".toList) := by decide +kernel
        have hDMP : splitVolumeName asciiCharacters "exp_02.DMP".toList =
            some ("exp_".toList, "02".toList, ".DMP".toList) := by decide +kernel
        rw [splitVolumeName_eq_some_iff.mpr hfirst, Option.some.injEq, Prod.mk.injEq, Prod.mk.injEq] at hdmp
        rw [splitVolumeName_eq_some_iff.mpr hsecond, Option.some.injEq, Prod.mk.injEq, Prod.mk.injEq] at hDMP
        exact absurd (hdmp.2.2.symm.trans hDMP.2.2) (by decide +kernel)
  obtain ⟨name, hall, -⟩ := (exact_iff_of_none hnone (List.cons_ne_nil _ _) fun _ hname => hname).mp h
  have hfirst := hall "exp_01.dmp".toList (by decide +kernel)
  have hsecond := hall "exp_02.DMP".toList (by decide +kernel)
  exact absurd (hfirst.trans hsecond.symm) (by decide +kernel)

end RecoveryService.OracleDumps
