import RecoveryService.Lib.JsonText

/-! # What run logs show

`_summarize` and `_redact` hide the values under sensitive keys and leave the entry `headers` out,
at every depth.  Two values that differ in such places only have one summary (`summarize_eq`).
The case folding of `str.lower` is a parameter. -/

namespace RecoveryService.ApiOrchestration

variable (lower : String → String)

/-- The marks of a sensitive key. -/
def sensitiveMarks : List (List Char) :=
  ["token".toList, "password".toList, "secret".toList, "cookie".toList, "authorization".toList]

/-- `any(mark in key.lower() for mark in ..)`. -/
def isSensitive (key : String) : Bool :=
  sensitiveMarks.any (fun mark => decide (mark <:+: (lower key).toList))

mutual
/-- `_redact`. -/
def redact : Json → Json
  | .obj entries => .obj (redactEntries entries)
  | .arr items => .arr (redactItems 100 items)
  | v => v

/-- `[_redact(item) for item in value[:n]]`. -/
def redactItems (n : ℕ) : List Json → List Json
  | [] => []
  | v :: items => if n = 0 then [] else redact v :: redactItems (n - 1) items

def redactEntries : List (String × Json) → List (String × Json)
  | [] => []
  | (key, v) :: entries =>
      if key = "headers" then redactEntries entries
      else (key, if isSensitive lower key then .str "******" else redact v) :: redactEntries entries
end

/-- `_summarize`. -/
def summarize : Json → Json
  | .obj entries => .obj (redactEntries lower entries)
  | .arr items => .arr (redactItems lower 100 items)
  | v => .obj [("value", v)]

/-! ### Values that differ in hidden places -/

/-- What stands under the key is not shown. -/
def Hidden (key : String) : Prop := isSensitive lower key = true ∨ key = "headers"

mutual
/-- The values are equal but for what stands under hidden keys. -/
inductive Alike : Json → Json → Prop
  | null : Alike .null .null
  | bool (b : Bool) : Alike (.bool b) (.bool b)
  | num (n : ℤ) : Alike (.num n) (.num n)
  | float (t : String) : Alike (.float t) (.float t)
  | str (s : String) : Alike (.str s) (.str s)
  | arr {items items' : List Json} : AlikeItems items items' → Alike (.arr items) (.arr items')
  | obj {entries entries' : List (String × Json)} : AlikeEntries entries entries' →
      Alike (.obj entries) (.obj entries')

inductive AlikeItems : List Json → List Json → Prop
  | nil : AlikeItems [] []
  | cons {v v' : Json} {items items' : List Json} : Alike v v' → AlikeItems items items' →
      AlikeItems (v :: items) (v' :: items')

inductive AlikeEntries : List (String × Json) → List (String × Json) → Prop
  | nil : AlikeEntries [] []
  | shown {key : String} {v v' : Json} {entries entries' : List (String × Json)} : Alike v v' →
      AlikeEntries entries entries' → AlikeEntries ((key, v) :: entries) ((key, v') :: entries')
  | hidden {key : String} (v v' : Json) {entries entries' : List (String × Json)} :
      Hidden lower key → AlikeEntries entries entries' →
      AlikeEntries ((key, v) :: entries) ((key, v') :: entries')
end

variable {lower}

mutual
/-- Redaction does not tell such values apart. -/
theorem redact_eq {v w : Json} (h : Alike lower v w) : redact lower v = redact lower w := by
  cases h with
  | null | bool | num | float | str => rfl
  | arr hitems => rw [redact, redact, redactItems_eq 100 hitems]
  | obj hentries => rw [redact, redact, redactEntries_eq hentries]

theorem redactItems_eq (n : ℕ) {items items' : List Json} (h : AlikeItems lower items items') :
    redactItems lower n items = redactItems lower n items' := by
  cases h with
  | nil => rfl
  | cons hv hitems => rw [redactItems, redactItems, redact_eq hv, redactItems_eq (n - 1) hitems]

theorem redactEntries_eq {entries entries' : List (String × Json)} (h : AlikeEntries lower entries entries') :
    redactEntries lower entries = redactEntries lower entries' := by
  cases h with
  | nil => rfl
  | shown hv hentries => rw [redactEntries, redactEntries, redact_eq hv, redactEntries_eq hentries]
  | hidden v v' hhidden hentries =>
      rw [redactEntries, redactEntries, redactEntries_eq hentries]
      obtain hsensitive | hheaders := hhidden
      · rw [hsensitive, if_pos rfl, if_pos rfl]
      · rw [if_pos hheaders, if_pos hheaders]
end

/-- The summary does not depend on what stands under hidden keys, at any depth. -/
theorem summarize_eq {v w : Json} (h : Alike lower v w) : summarize lower v = summarize lower w := by
  cases h with
  | null | bool | num | float | str => rfl
  | arr hitems => rw [summarize, summarize, redactItems_eq 100 hitems]
  | obj hentries => rw [summarize, summarize, redactEntries_eq hentries]

/-- A response with the token `token`, in a list of accounts, and the header `header`. -/
def response (token header : String) : Json :=
  .obj [("headers", .obj [("x-id", .str header)]),
    ("accounts", .arr [.obj [("name", .str "etl"), ("access_token", .str token)]])]

/-- Responses that differ in a token and a header have one summary. -/
theorem response_summarized : summarize id (response "a1" "7") = summarize id (response "b2" "9") := by
  refine summarize_eq (.obj (.hidden _ _ (Or.inr rfl) (.shown (.arr (.cons (.obj ?_) .nil)) .nil)))
  exact .shown (.str "etl") (.hidden _ _ (Or.inl (by decide)) .nil)

end RecoveryService.ApiOrchestration
