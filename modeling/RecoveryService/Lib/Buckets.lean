import Mathlib.Data.List.Induction
import Mathlib.Data.List.Nodup
import Mathlib.Data.List.Perm.Basic

/-! # Grouping by a key

A dictionary of lists that is filled by `groups.setdefault(key(item), []).append(item)`. -/

namespace Buckets

variable {κ α : Type}

section build
variable [DecidableEq κ]

/-- `groups.setdefault(key, []).append(item)`. -/
def add (key : κ) (item : α) : List (κ × List α) → List (κ × List α)
  | [] => [(key, [item])]
  | group :: groups =>
      if group.1 = key then (key, group.2 ++ [item]) :: groups else group :: add key item groups

/-- The groups of a list, in the order of their first items. -/
def groupBy (key : α → κ) (items : List α) : List (κ × List α) :=
  items.foldl (fun groups item => add (key item) item groups) []

example : groupBy (· % 2) [1, 4, 3] = [(1, [1, 3]), (0, [4])] := by decide

variable {groups : List (κ × List α)}

theorem fst_of_mem_add {key : κ} {item : α} {group : κ × List α} (h : group ∈ add key item groups) :
    group.1 = key ∨ ∃ old ∈ groups, old.1 = group.1 := by
  induction groups with
  | nil =>
      rw [add, List.mem_singleton] at h
      exact .inl (h ▸ rfl)
  | cons first rest ih =>
      rw [add] at h
      split_ifs at h with hkey
      · rcases List.mem_cons.mp h with rfl | h
        · exact .inl rfl
        · exact .inr ⟨group, List.mem_cons_of_mem _ h, rfl⟩
      · rcases List.mem_cons.mp h with rfl | h
        · exact .inr ⟨group, List.mem_cons_self, rfl⟩
        · refine (ih h).imp_right fun ⟨old, hold, heq⟩ => ⟨old, List.mem_cons_of_mem _ hold, heq⟩

theorem nodup_add {key : κ} {item : α} (h : (groups.map Prod.fst).Nodup) :
    ((add key item groups).map Prod.fst).Nodup := by
  induction groups with
  | nil => exact List.nodup_singleton key
  | cons first rest ih =>
      have hrest := List.nodup_cons.mp h
      rw [add]
      split_ifs with hkey
      · subst hkey
        exact h
      · refine List.nodup_cons.mpr ⟨fun hmem => ?_, ih hrest.2⟩
        obtain ⟨group, hgroup, heq⟩ := List.mem_map.mp hmem
        rcases fst_of_mem_add hgroup with hfst | ⟨old, hold, hfst⟩
        · exact hkey (heq.symm.trans hfst)
        · exact hrest.1 (List.mem_map.mpr ⟨old, hold, hfst.trans heq⟩)

theorem perm_add (key : κ) (item : α) (groups : List (κ × List α)) :
    ((add key item groups).flatMap Prod.snd).Perm (groups.flatMap Prod.snd ++ [item]) := by
  induction groups with
  | nil => exact List.Perm.refl _
  | cons first rest ih =>
      rw [add]
      split_ifs with hkey
      · rw [List.flatMap_cons, List.flatMap_cons, List.append_assoc, List.append_assoc]
        exact List.perm_append_comm.append_left _
      · rw [List.flatMap_cons, List.flatMap_cons, List.append_assoc]
        exact ih.append_left _

/-- A group of the new dictionary is an old one, or the one of the item. -/
theorem mem_add {key : κ} {item : α} {group : κ × List α} (h : group ∈ add key item groups) :
    group ∈ groups ∨ group = (key, [item]) ∨ ∃ items, (key, items) ∈ groups ∧ group = (key, items ++ [item]) := by
  induction groups with
  | nil => exact .inr (.inl (List.mem_singleton.mp h))
  | cons first rest ih =>
      rw [add] at h
      split_ifs at h with hkey
      · rcases List.mem_cons.mp h with rfl | h
        · exact .inr (.inr ⟨first.2, hkey ▸ List.mem_cons_self, rfl⟩)
        · exact .inl (List.mem_cons_of_mem _ h)
      · rcases List.mem_cons.mp h with rfl | h
        · exact .inl List.mem_cons_self
        · rcases ih h with hold | hnew | ⟨items, hitems, heq⟩
          · exact .inl (List.mem_cons_of_mem _ hold)
          · exact .inr (.inl hnew)
          · exact .inr (.inr ⟨items, List.mem_cons_of_mem _ hitems, heq⟩)

end build

/-- What the groups of the items read so far are. -/
structure Grouped (key : α → κ) (items : List α) (groups : List (κ × List α)) : Prop where
  keys : (groups.map Prod.fst).Nodup
  perm : (groups.flatMap Prod.snd).Perm items
  sound : ∀ group ∈ groups, ∀ item ∈ group.2, key item = group.1
  nonempty : ∀ group ∈ groups, group.2 ≠ []

variable {key : α → κ} {items : List α}
variable {groups : List (κ × List α)}

theorem Grouped.add [DecidableEq κ] (h : Grouped key items groups) (item : α) :
    Grouped key (items ++ [item]) (add (key item) item groups) where
  keys := nodup_add h.keys
  perm := (perm_add _ _ _).trans (h.perm.append_right _)
  sound group hgroup x hx := by
    rcases mem_add hgroup with hold | rfl | ⟨old, hold, rfl⟩
    · exact h.sound group hold x hx
    · rw [List.mem_singleton.mp hx]
    · rcases List.mem_append.mp hx with hx | hx
      · exact h.sound _ hold x hx
      · rw [List.mem_singleton.mp hx]
  nonempty group hgroup := by
    rcases mem_add hgroup with hold | rfl | ⟨old, -, rfl⟩
    · exact h.nonempty group hold
    · exact List.cons_ne_nil _ _
    · exact List.append_ne_nil_of_right_ne_nil _ (List.cons_ne_nil _ _)

theorem grouped_groupBy [DecidableEq κ] (key : α → κ) (items : List α) : Grouped key items (groupBy key items) := by
  induction items using List.reverseRecOn with
  | nil =>
      exact ⟨List.nodup_nil, List.Perm.refl _, fun _ h => (nomatch h), fun _ h => (nomatch h)⟩
  | append_singleton items item ih =>
      unfold groupBy at ih ⊢
      rw [List.foldl_append]
      exact ih.add item

/-- An item is in the group of its key. -/
theorem Grouped.exists_group (h : Grouped key items groups) {item : α} (hitem : item ∈ items) :
    ∃ group ∈ groups, group.1 = key item ∧ item ∈ group.2 := by
  obtain ⟨group, hgroup, hmem⟩ := List.mem_flatMap.mp (h.perm.mem_iff.mpr hitem)
  exact ⟨group, hgroup, (h.sound group hgroup item hmem).symm, hmem⟩

/-- A group has every item of its key. -/
theorem Grouped.mem_of_key (h : Grouped key items groups) {group : κ × List α} (hgroup : group ∈ groups)
    {item : α} (hitem : item ∈ items) (hkey : key item = group.1) : item ∈ group.2 := by
  obtain ⟨other, hother, hfst, hmem⟩ := h.exists_group hitem
  have hsame : other = group := List.inj_on_of_nodup_map h.keys hother hgroup (hfst.trans hkey)
  exact hsame ▸ hmem

theorem Grouped.mem_items (h : Grouped key items groups) {group : κ × List α} (hgroup : group ∈ groups)
    {item : α} (hitem : item ∈ group.2) : item ∈ items :=
  h.perm.mem_iff.mp (List.mem_flatMap.mpr ⟨group, hgroup, hitem⟩)

end Buckets
