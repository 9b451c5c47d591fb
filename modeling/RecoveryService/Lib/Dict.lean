import RecoveryService.Lib.Json

/-! # Dictionaries

A Python dictionary with string keys is the list of its entries in insertion order. -/

/-- A dictionary of JSON values. -/
abbrev Dict := List (String × Json)

namespace Dict

/-- `list(dict.fromkeys(l))`: the first of equal entries stays. -/
def fromKeys {α : Type} [DecidableEq α] (l : List α) : List α := l.reverse.dedup.reverse

theorem mem_fromKeys {α : Type} [DecidableEq α] {l : List α} {a : α} : a ∈ fromKeys l ↔ a ∈ l := by
  simp [fromKeys]

theorem nodup_fromKeys {α : Type} [DecidableEq α] (l : List α) : (fromKeys l).Nodup :=
  List.nodup_reverse.mpr (List.nodup_dedup _)

/-- `d.get(key)`. -/
def get (d : Dict) (key : String) : Json := (d.lookup key).getD .null

/-- `d[key] = value`: an entry that exists keeps its place, a new one goes to the end. -/
def set : Dict → String → Json → Dict
  | [], key, value => [(key, value)]
  | (k, v) :: d, key, value => if k = key then (key, value) :: d else (k, v) :: set d key value

/-- `{**d, **other}` and `d.update(other)`. -/
def update (d other : Dict) : Dict := other.foldl (fun d entry => d.set entry.1 entry.2) d

variable (d : Dict) {k key : String} (v : Json)

@[simp] theorem get_nil : get [] key = .null := rfl

@[simp] theorem get_cons_self (d : Dict) : get ((key, v) :: d) key = v := by
  simp [get]

theorem lookup_cons_ne (h : k ≠ key) : List.lookup key ((k, v) :: d) = List.lookup key d := by
  have hb : (key == k) = false := beq_false_of_ne h.symm
  rw [List.lookup_cons, hb]

@[simp] theorem lookup_set_self : List.lookup key (d.set key v) = some v := by
  induction d with
  | nil => simp [set]
  | cons entry d ih =>
      obtain ⟨k, w⟩ := entry
      unfold set
      by_cases h : k = key
      · rw [if_pos h, List.lookup_cons_self]
      · rw [if_neg h, lookup_cons_ne _ _ h, ih]

@[simp] theorem get_set_self : (d.set key v).get key = v := by
  unfold get
  rw [lookup_set_self, Option.getD_some]

/-- The other entries stay. -/
theorem lookup_set_ne (h : k ≠ key) : List.lookup key (d.set k v) = List.lookup key d := by
  induction d with
  | nil =>
      unfold set
      rw [lookup_cons_ne _ _ h]
  | cons entry d ih =>
      obtain ⟨k', w⟩ := entry
      unfold set
      by_cases hk : k' = k
      · rw [if_pos hk, lookup_cons_ne _ _ h, lookup_cons_ne _ _ (hk ▸ h)]
      · rw [if_neg hk]
        by_cases hkey : k' = key
        · rw [hkey, List.lookup_cons_self, List.lookup_cons_self]
        · rw [lookup_cons_ne _ _ hkey, lookup_cons_ne _ _ hkey, ih]

theorem get_set_ne (h : k ≠ key) : (d.set k v).get key = d.get key := by
  unfold get
  rw [lookup_set_ne _ _ h]

/-- An update leaves the entries it does not name. -/
theorem lookup_update_ne {other : Dict} (h : ∀ entry ∈ other, entry.1 ≠ key) :
    List.lookup key (d.update other) = List.lookup key d := by
  induction other generalizing d with
  | nil => rfl
  | cons entry other ih =>
      obtain ⟨hentry, hother⟩ := List.forall_mem_cons.mp h
      change List.lookup key (update (d.set entry.1 entry.2) other) = _
      rw [ih _ hother, lookup_set_ne _ _ hentry]

end Dict

/-- `dict(value or {})`: a list of pairs is no dictionary of the callers. -/
def Json.toDict : Json → Option Dict
  | .obj entries => some entries
  | value => if value.truthy then none else some []

/-- `d.get(key, default)`. -/
def Dict.getOr (d : Dict) (key : String) (default : Json) : Json := (d.lookup key).getD default

/-- The same of a value that is a dictionary. -/
def Json.getOr (value : Json) (key : String) (default : Json) : Json :=
  match value with
  | .obj entries => Dict.getOr entries key default
  | _ => default

/-- `list(value or [])`. -/
def Json.toList : Json → Option (List Json)
  | .arr items => some items
  | value => if value.truthy then none else some []
