import Mathlib

/-! # Feistel networks of four words

A round moves the first of four words to the end, combined with a function of a key and the other three.
The network is its own inverse under the reversed keys once the four words are reversed at the end, whatever
the function is, as long as it does not distinguish its first argument from its third. -/

namespace Feistel

variable {W K : Type*} (xor : W → W → W) (F : K → W → W → W → W)

def round (s : W × W × W × W) (k : K) : W × W × W × W :=
  (s.2.1, s.2.2.1, s.2.2.2, xor s.1 (F k s.2.1 s.2.2.1 s.2.2.2))

/-- The words in the other order. -/
def flip (s : W × W × W × W) : W × W × W × W := (s.2.2.2, s.2.2.1, s.2.1, s.1)

def crypt (keys : List K) (s : W × W × W × W) : W × W × W × W := flip (keys.foldl (round xor F) s)

variable {xor F}

/-- A round undoes itself on the reversed words. -/
theorem round_flip_round (hxor : ∀ a b, xor (xor a b) b = a) (hF : ∀ k b c d, F k d c b = F k b c d)
    (s : W × W × W × W) (k : K) : round xor F (flip (round xor F s k)) k = flip s := by
  obtain ⟨a, b, c, d⟩ := s
  show (d, c, b, xor (xor a (F k b c d)) (F k d c b)) = (d, c, b, a)
  rw [hF, hxor]

theorem foldl_flip_foldl (hxor : ∀ a b, xor (xor a b) b = a) (hF : ∀ k b c d, F k d c b = F k b c d)
    (keys : List K) (s : W × W × W × W) :
    keys.reverse.foldl (round xor F) (flip (keys.foldl (round xor F) s)) = flip s := by
  induction keys generalizing s with
  | nil => rfl
  | cons k keys ih =>
      have hrest := ih (round xor F s k)
      rw [List.reverse_cons, List.foldl_append]
      show round xor F (keys.reverse.foldl (round xor F) (flip (keys.foldl (round xor F)
        (round xor F s k)))) k = flip s
      rw [hrest]
      exact round_flip_round hxor hF s k

/-- The reversed keys invert the network. -/
theorem crypt_reverse_crypt (hxor : ∀ a b, xor (xor a b) b = a)
    (hF : ∀ k b c d, F k d c b = F k b c d) (keys : List K) (s : W × W × W × W) :
    crypt xor F keys.reverse (crypt xor F keys s) = s :=
  congrArg flip (foldl_flip_foldl hxor hF keys s)

end Feistel
