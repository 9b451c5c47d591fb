import RecoveryService.Lib.JsonText
import RecoveryService.Lib.Text

/-! # Path tokens

The regular expression `_PATH_TOKEN`: two opening braces, a path of letters, digits, underscores,
points and hyphens that may have spaces around it, and two closing braces.  The three character
classes are disjoint, so that a match at a position is found without going back. -/

namespace RecoveryService.ApiOrchestration

open Json (openBrace closeBrace)

def isPathChar (c : Char) : Bool := c.isAlphanum || c = '_' || c = '.' || c = '-'

/-- `_PATH_TOKEN.match(text)`: the path, and the text behind the token. -/
def matchToken : List Char → Option (List Char × List Char)
  | c :: d :: cs =>
      let path := (cs.dropWhile Text.isSpace).takeWhile isPathChar
      let behind := ((cs.dropWhile Text.isSpace).dropWhile isPathChar).dropWhile Text.isSpace
      if c = openBrace ∧ d = openBrace ∧ path ≠ [] ∧ behind.take 2 = [closeBrace, closeBrace] then
        some (path, behind.drop 2)
      else none
  | _ => none

/-- A text in pieces: its tokens, and the characters that belong to none. -/
inductive Piece
  | char (c : Char)
  | token (path : List Char)

/-- The pieces of a text; no turn leaves the text as it is. -/
def scanFrom : ℕ → List Char → List Piece
  | 0, _ => []
  | _ + 1, [] => []
  | n + 1, c :: cs =>
      match matchToken (c :: cs) with
      | some (path, behind) => .token path :: scanFrom n behind
      | none => .char c :: scanFrom n cs

def scan (s : String) : List Piece := scanFrom s.toList.length s.toList

def Piece.path? : Piece → Option String
  | .char _ => none
  | .token path => some (String.ofList path)

def Piece.char? : Piece → Option Char
  | .char c => some c
  | .token _ => none

/-- `_PATH_TOKEN.findall(text)`. -/
def tokens (s : String) : List String := (scan s).filterMap Piece.path?

/-- `_PATH_TOKEN.sub("", text)`. -/
def remainder (s : String) : List Char := (scan s).filterMap Piece.char?

/-- The path of `_PATH_TOKEN.fullmatch(text)`. -/
def fullToken (s : String) : Option String :=
  match matchToken s.toList with
  | some (path, []) => some (String.ofList path)
  | _ => none

/-- A text that is one token has this token only. -/
theorem scan_of_fullToken {s path : String} (h : fullToken s = some path) : scan s = [.token path.toList] := by
  unfold fullToken at h
  split at h
  next chars hmatch =>
    cases h
    unfold scan
    cases hs : s.toList with
    | nil =>
        rw [hs] at hmatch
        cases hmatch
    | cons c cs =>
        rw [hs] at hmatch
        rw [List.length_cons, scanFrom, hmatch, String.toList_ofList]
        cases cs <;> rfl
  next => cases h

theorem tokens_of_fullToken {s path : String} (h : fullToken s = some path) : tokens s = [path] := by
  unfold tokens
  rw [scan_of_fullToken h]
  simp [Piece.path?]

/-- The token of a path. -/
def tokenOf (path : List Char) : List Char := openBrace :: openBrace :: (path ++ [closeBrace, closeBrace])

theorem toNat_of_isPathChar {c : Char} (h : isPathChar c = true) : 45 ≤ c.toNat ∧ c.toNat ≤ 122 := by
  unfold isPathChar at h
  simp only [Bool.or_eq_true, decide_eq_true_eq] at h
  obtain ((halnum | rfl) | rfl) | rfl := h
  · simp only [Char.isAlphanum, Char.isAlpha, Char.isUpper, Char.isLower, Char.isDigit,
      Bool.or_eq_true, Bool.and_eq_true, decide_eq_true_eq, ge_iff_le, UInt32.le_iff_toNat_le] at halnum
    have hval : c.val.toNat = c.toNat := rfl
    have hbounds : 'A'.val.toNat = 65 ∧ 'Z'.val.toNat = 90 ∧ 'a'.val.toNat = 97 ∧
        'z'.val.toNat = 122 ∧ '0'.val.toNat = 48 ∧ '9'.val.toNat = 57 := by decide
    omega
  · decide
  · decide
  · decide

theorem isSpace_of_isPathChar {c : Char} (h : isPathChar c = true) : Text.isSpace c = false := by
  have hrange := toNat_of_isPathChar h
  unfold Text.isSpace
  simp only [Bool.or_eq_false_iff, Bool.and_eq_false_iff, decide_eq_false_iff_not, beq_eq_false_iff_ne]
  omega

theorem matchToken_tokenOf {path : List Char} (hne : path ≠ []) (hpath : ∀ c ∈ path, isPathChar c = true) :
    matchToken (tokenOf path) = some (path, []) := by
  have hstart : (path ++ [closeBrace, closeBrace]).dropWhile Text.isSpace =
      path ++ [closeBrace, closeBrace] := by
    cases path with
    | nil => exact absurd rfl hne
    | cons c cs =>
        rw [List.cons_append, List.dropWhile_cons_of_neg]
        rw [isSpace_of_isPathChar (hpath c List.mem_cons_self)]
        decide
  have htake : (path ++ [closeBrace, closeBrace]).takeWhile isPathChar = path := by
    rw [List.takeWhile_append_of_pos hpath]
    exact List.append_nil path
  have hdrop : (path ++ [closeBrace, closeBrace]).dropWhile isPathChar = [closeBrace, closeBrace] :=
    List.dropWhile_append_of_pos hpath
  unfold tokenOf matchToken
  simp only
  rw [hstart, htake, hdrop, if_pos ⟨trivial, trivial, hne, by decide⟩]
  rfl

theorem fullToken_tokenOf {path : List Char} (hne : path ≠ []) (hpath : ∀ c ∈ path, isPathChar c = true) :
    fullToken (String.ofList (tokenOf path)) = some (String.ofList path) := by
  unfold fullToken
  rw [String.toList_ofList, matchToken_tokenOf hne hpath]

/-! ### Paths -/

/-- `path.split(".")`. -/
def splitPoints : List Char → List (List Char)
  | [] => [[]]
  | c :: cs =>
      if c = '.' then [] :: splitPoints cs
      else
        match splitPoints cs with
        | [] => [[c]]
        | part :: parts => (c :: part) :: parts

/-- The parts of a path that are not empty. -/
def pathParts (path : String) : List (List Char) := (splitPoints path.toList).filter (· ≠ [])

/-- `path.split(".", 1)[0]`. -/
def pathRoot (path : String) : List Char := path.toList.takeWhile (· ≠ '.')

theorem splitPoints_head (cs : List Char) : ∃ parts, splitPoints cs = cs.takeWhile (· ≠ '.') :: parts := by
  induction cs with
  | nil => exact ⟨[], rfl⟩
  | cons c cs ih =>
      obtain ⟨parts, hparts⟩ := ih
      unfold splitPoints
      by_cases hc : c = '.'
      · exact ⟨splitPoints cs, by simp [hc]⟩
      · exact ⟨parts, by simp [hc, hparts]⟩

theorem splitPoints_pointfree {cs : List Char} (h : '.' ∉ cs) : splitPoints cs = [cs] := by
  induction cs with
  | nil => rfl
  | cons c cs ih =>
      rw [List.mem_cons, not_or] at h
      unfold splitPoints
      rw [ih h.2, if_neg (Ne.symm h.1)]

theorem splitPoints_append {first cs : List Char} (h : '.' ∉ first) :
    splitPoints (first ++ '.' :: cs) = first :: splitPoints cs := by
  induction first with
  | nil =>
      rw [List.nil_append, splitPoints, if_pos rfl]
  | cons c first ih =>
      rw [List.mem_cons, not_or] at h
      rw [List.cons_append, splitPoints, ih h.2, if_neg (Ne.symm h.1)]

/-- A root that is not empty is the first part of its path. -/
theorem pathParts_of_root {path : String} (h : pathRoot path ≠ []) :
    ∃ parts, pathParts path = pathRoot path :: parts := by
  obtain ⟨parts, hparts⟩ := splitPoints_head path.toList
  unfold pathParts pathRoot at *
  rw [hparts]
  exact ⟨_, List.filter_cons_of_pos (by simpa using h)⟩

end RecoveryService.ApiOrchestration
