import Mathlib

/-! # Base64

The encoder takes three bytes to four letters and pads the last group; the decoder reads groups of four
letters, with padding in the last one only, and does not look at the bits that are left over.  What was
encoded is decoded to the same bytes. -/

namespace Base64

/-- The letter of a number below `64`. -/
def letter (n : ℕ) : Char :=
  if n < 26 then Char.ofNat (65 + n)
  else if n < 52 then Char.ofNat (71 + n)
  else if n < 62 then Char.ofNat (n - 4)
  else if n = 62 then '+'
  else '/'

/-- The number of a letter. -/
def value (c : Char) : Option ℕ :=
  let n := c.toNat
  if 65 ≤ n ∧ n ≤ 90 then some (n - 65)
  else if 97 ≤ n ∧ n ≤ 122 then some (n - 71)
  else if 48 ≤ n ∧ n ≤ 57 then some (n + 4)
  else if c = '+' then some 62
  else if c = '/' then some 63
  else none

def encode : List UInt8 → List Char
  | a :: b :: c :: rest =>
      letter (a.toNat / 4) :: letter (a.toNat % 4 * 16 + b.toNat / 16) ::
        letter (b.toNat % 16 * 4 + c.toNat / 64) :: letter (c.toNat % 64) :: encode rest
  | [a, b] =>
      [letter (a.toNat / 4), letter (a.toNat % 4 * 16 + b.toNat / 16), letter (b.toNat % 16 * 4), '=']
  | [a] => [letter (a.toNat / 4), letter (a.toNat % 4 * 16), '=', '=']
  | [] => []

/-- The bytes of a full group. -/
def group (w x y z : ℕ) : List UInt8 :=
  [UInt8.ofNat (w * 4 + x / 16), UInt8.ofNat (x % 16 * 16 + y / 4), UInt8.ofNat (y % 4 * 64 + z)]

def decode : List Char → Option (List UInt8)
  | [] => some []
  | a :: b :: c :: d :: rest =>
      if rest = [] ∧ c = '=' ∧ d = '=' then do
        let w ← value a
        let x ← value b
        some ((group w x 0 0).take 1)
      else if rest = [] ∧ d = '=' then do
        let w ← value a
        let x ← value b
        let y ← value c
        some ((group w x y 0).take 2)
      else do
        let w ← value a
        let x ← value b
        let y ← value c
        let z ← value d
        let bytes ← decode rest
        some (group w x y z ++ bytes)
  | _ => none

theorem letters : ∀ n : Fin 64, value (letter n) = some n.val ∧ letter n ≠ '=' := by decide

theorem value_letter {n : ℕ} (hn : n < 64) : value (letter n) = some n := (letters ⟨n, hn⟩).1

theorem letter_ne {n : ℕ} (hn : n < 64) : letter n ≠ '=' := (letters ⟨n, hn⟩).2

/-- The bits of three bytes are put together again. -/
theorem group_bytes (a b c : UInt8) :
    group (a.toNat / 4) (a.toNat % 4 * 16 + b.toNat / 16) (b.toNat % 16 * 4 + c.toNat / 64)
      (c.toNat % 64) = [a, b, c] := by
  have hb := b.toNat_lt
  have hc := c.toNat_lt
  have hfirst : a.toNat / 4 * 4 + (a.toNat % 4 * 16 + b.toNat / 16) / 16 = a.toNat := by omega
  have hsecond : (a.toNat % 4 * 16 + b.toNat / 16) % 16 * 16 +
      (b.toNat % 16 * 4 + c.toNat / 64) / 4 = b.toNat := by omega
  have hthird : (b.toNat % 16 * 4 + c.toNat / 64) % 4 * 64 + c.toNat % 64 = c.toNat := by omega
  unfold group
  rw [hfirst, hsecond, hthird, UInt8.ofNat_toNat, UInt8.ofNat_toNat, UInt8.ofNat_toNat]

theorem decode_group {w x y z : ℕ} (hw : w < 64) (hx : x < 64) (hy : y < 64) (hz : z < 64)
    (rest : List Char) : decode (letter w :: letter x :: letter y :: letter z :: rest) =
      (decode rest).map (group w x y z ++ ·) := by
  rw [decode, if_neg fun h => letter_ne hy h.2.1, if_neg fun h => letter_ne hz h.2, value_letter hw,
    value_letter hx, value_letter hy, value_letter hz]
  cases decode rest <;> rfl

/-- What was encoded is decoded. -/
theorem decode_encode (bytes : List UInt8) : decode (encode bytes) = some bytes := by
  induction bytes using encode.induct with
  | case1 a b c rest ih =>
      have ha := a.toNat_lt
      have hb := b.toNat_lt
      have hc := c.toNat_lt
      rw [encode, decode_group (by omega) (by omega) (by omega) (by omega), ih, group_bytes]
      rfl
  | case2 a b =>
      have ha := a.toNat_lt
      have hb := b.toNat_lt
      have hgroup := congrArg (List.take 2) (group_bytes a b 0)
      rw [encode, decode, if_neg fun h => letter_ne (by omega) h.2.1, if_pos ⟨rfl, rfl⟩,
        value_letter (by omega), value_letter (by omega), value_letter (by omega)]
      exact congrArg some hgroup
  | case3 a =>
      have ha := a.toNat_lt
      have hgroup := congrArg (List.take 1) (group_bytes a 0 0)
      rw [encode, decode, if_pos ⟨rfl, rfl, rfl⟩, value_letter (by omega), value_letter (by omega)]
      exact congrArg some hgroup
  | case4 => rfl

theorem length_encode (bytes : List UInt8) : (encode bytes).length = 4 * ((bytes.length + 2) / 3) := by
  induction bytes using encode.induct with
  | case1 a b c rest ih =>
      rw [encode]
      simp only [List.length_cons, ih]
      omega
  | case2 | case3 | case4 => simp [encode]

end Base64
