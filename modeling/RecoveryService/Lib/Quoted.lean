import Mathlib

/-! # Texts between quotes

A text is enclosed by doubling the quote inside of it; a reader takes a doubled quote for one and stops
at a single one.  Two enclosed texts with something else behind them differ as soon as the texts do
(`enclose_append_inj`). -/

namespace Quoted

variable {q : Char}

def double (q c : Char) : List Char := if c = q then [q, q] else [c]

def enclose (q : Char) (s : List Char) : List Char := q :: (s.flatMap (double q) ++ [q])

/-- The text up to the closing quote, and what stands behind it. -/
def readBody (q : Char) : List Char → Option (List Char × List Char)
  | [] => none
  | [c] => if c = q then some ([], []) else none
  | c :: c' :: cs =>
      if c = q then
        if c' = q then (readBody q cs).map fun r => (q :: r.1, r.2) else some ([], c' :: cs)
      else (readBody q (c' :: cs)).map fun r => (c :: r.1, r.2)

/-- An enclosed text and nothing else. -/
def read (q : Char) : List Char → Option (List Char)
  | [] => none
  | c :: cs =>
      if c = q then
        match readBody q cs with
        | some (s, []) => some s
        | _ => none
      else none

theorem double_self (q : Char) : double q q = [q, q] := if_pos rfl

theorem double_ne {c : Char} (hc : c ≠ q) : double q c = [c] := if_neg hc

theorem readBody_cons {c : Char} (hc : c ≠ q) {cs : List Char} (hcs : cs ≠ []) :
    readBody q (c :: cs) = (readBody q cs).map fun r => (c :: r.1, r.2) := by
  cases cs with
  | nil => exact absurd rfl hcs
  | cons c' cs => rw [readBody, if_neg hc]

theorem readBody_double (s : List Char) {rest : List Char} (h : rest.head? ≠ some q) :
    readBody q (s.flatMap (double q) ++ q :: rest) = some (s, rest) := by
  induction s with
  | nil =>
      rw [List.flatMap_nil, List.nil_append]
      cases rest with
      | nil => rw [readBody, if_pos rfl]
      | cons c rest =>
          have hc : c ≠ q := fun heq => h (by rw [heq]; rfl)
          rw [readBody, if_pos rfl, if_neg hc]
  | cons c s ih =>
      rw [List.flatMap_cons, List.append_assoc]
      by_cases hc : c = q
      · rw [hc, double_self]
        show readBody q (q :: q :: (s.flatMap (double q) ++ q :: rest)) = _
        rw [readBody, if_pos rfl, if_pos rfl, ih]
        rfl
      · rw [double_ne hc, List.singleton_append, readBody_cons hc (by simp), ih]
        rfl

/-- What was read stood there enclosed. -/
theorem readBody_eq_some {cs s rest : List Char} (h : readBody q cs = some (s, rest)) :
    cs = s.flatMap (double q) ++ q :: rest := by
  induction cs using readBody.induct q generalizing s with
  | case1 => cases h
  | case2 =>
      rw [readBody, if_pos rfl] at h
      cases h
      rfl
  | case3 c hc =>
      rw [readBody, if_neg hc] at h
      cases h
  | case4 cs ih =>
      rw [readBody, if_pos rfl, if_pos rfl] at h
      obtain ⟨⟨s', rest'⟩, hread, hs⟩ := Option.map_eq_some_iff.mp h
      cases hs
      rw [ih hread, List.flatMap_cons, double_self]
      rfl
  | case5 c' cs hc' =>
      rw [readBody, if_pos rfl, if_neg hc'] at h
      cases h
      rfl
  | case6 c c' cs hc ih =>
      rw [readBody, if_neg hc] at h
      obtain ⟨⟨s', rest'⟩, hread, hs⟩ := Option.map_eq_some_iff.mp h
      cases hs
      rw [ih hread, List.flatMap_cons, double_ne hc]
      rfl

theorem enclose_append (q : Char) (s rest : List Char) :
    enclose q s ++ rest = q :: (s.flatMap (double q) ++ q :: rest) := by
  unfold enclose
  rw [List.cons_append, List.append_assoc, List.singleton_append]

theorem enclose_append_inj {s s' rest rest' : List Char} (hrest : rest.head? ≠ some q)
    (hrest' : rest'.head? ≠ some q) (h : enclose q s ++ rest = enclose q s' ++ rest') :
    s = s' ∧ rest = rest' := by
  rw [enclose_append, enclose_append, List.cons.injEq] at h
  have hread := readBody_double s hrest
  rw [h.2, readBody_double s' hrest', Option.some.injEq, Prod.mk.injEq] at hread
  exact ⟨hread.1.symm, hread.2.symm⟩

theorem read_iff {cs s : List Char} : read q cs = some s ↔ cs = enclose q s := by
  constructor
  · intro h
    cases cs with
    | nil => cases h
    | cons c cs =>
        simp only [read] at h
        split_ifs at h with hc
        split at h
        · next s' hbody =>
            cases h
            rw [hc, readBody_eq_some hbody]
            rfl
        · cases h
  · rintro rfl
    have hbody : readBody q (s.flatMap (double q) ++ [q]) = some (s, []) := readBody_double s (by simp)
    simp only [enclose, read, if_true, hbody]

end Quoted
