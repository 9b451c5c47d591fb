import RecoveryService.Lib.JsonText

/-! # What a reader sees of a canonical value

`canonical ignored v` leaves out the entries of `v` under the ignored names, at every depth, and
sorts the entries that stay.  A `Footprint` describes which parts of a value a reader looks at.  Of
two values with one canonical form a reader sees the same if and only if they agree on the parts it
looks at under ignored names (`read_eq_iff`). -/

namespace Json

/-! ### Canonical values -/

def sortEntries (entries : List (String × Json)) : List (String × Json) :=
  entries.insertionSort (fun a b => a.1 ≤ b.1)

section canonical

variable (ignored : String → Bool)

mutual
def canonical : Json → Json
  | arr items => arr (canonicalItems items)
  | obj entries => obj (sortEntries (canonicalEntries entries))
  | v => v

def canonicalItems : List Json → List Json
  | [] => []
  | v :: items => canonical v :: canonicalItems items

def canonicalEntries : List (String × Json) → List (String × Json)
  | [] => []
  | (k, v) :: entries =>
      if ignored k then canonicalEntries entries
      else (k, canonical v) :: canonicalEntries entries
end

/-- The value with its entries in the order of their keys. -/
def normal (v : Json) : Json := canonical (fun _ => false) v

/-- The value has no entry under an ignored name. -/
def Unabridged (v : Json) : Prop := canonical ignored v = normal v

/-- The entry of a dictionary, if there is one. -/
def entry (v : Json) (key : String) : Option Json :=
  match v with
  | obj entries => entries.lookup key
  | _ => none

/-- The items of a list. -/
def items? (v : Json) : Option (List Json) :=
  match v with
  | arr items => some items
  | _ => none

@[simp] theorem canonical_str (s : String) : canonical ignored (str s) = str s := by
  simp [canonical]

theorem canonicalItems_eq (items : List Json) :
    canonicalItems ignored items = items.map (canonical ignored) := by
  induction items with
  | nil => rfl
  | cons v items ih => rw [canonicalItems, ih, List.map_cons]

theorem lookup_orderedInsert (a : String × Json) (entries : List (String × Json)) (key : String) :
    (entries.orderedInsert (fun a b => a.1 ≤ b.1) a).lookup key = (a :: entries).lookup key := by
  induction entries with
  | nil => rfl
  | cons b entries ih =>
      rw [List.orderedInsert]
      split
      · rfl
      · next hle =>
          have hne : a.1 ≠ b.1 := fun h => hle h.le
          rw [List.lookup_cons, ih, List.lookup_cons, List.lookup_cons, List.lookup_cons]
          by_cases hb : key = b.1
          · have hka : (key == a.1) = false := beq_eq_false_iff_ne.mpr (fun h => hne (h.symm.trans hb))
            rw [hka]
          · have hkb : (key == b.1) = false := beq_eq_false_iff_ne.mpr hb
            rw [hkb]

theorem lookup_sortEntries (entries : List (String × Json)) (key : String) :
    (sortEntries entries).lookup key = entries.lookup key := by
  unfold sortEntries
  induction entries with
  | nil => rfl
  | cons a entries ih =>
      rw [List.insertionSort_cons, lookup_orderedInsert, List.lookup_cons, ih, List.lookup_cons]

theorem lookup_canonicalEntries (entries : List (String × Json)) (key : String) :
    (canonicalEntries ignored entries).lookup key =
      if ignored key then none else (entries.lookup key).map (canonical ignored) := by
  induction entries with
  | nil => simp [canonicalEntries]
  | cons e entries ih =>
      obtain ⟨k, v⟩ := e
      rw [canonicalEntries, List.lookup_cons]
      by_cases hk : key = k
      · subst hk
        cases h : ignored key with
        | true => simp [ih, h]
        | false => simp
      · have hbeq : (key == k) = false := by simpa using hk
        cases h : ignored k with
        | true => simp [ih, hbeq]
        | false => simp [List.lookup_cons, ih, hbeq]

theorem entry_canonical (v : Json) (key : String) : (canonical ignored v).entry key =
      if ignored key then none else (v.entry key).map (canonical ignored) := by
  cases v with
  | obj entries =>
      rw [canonical]
      show (sortEntries _).lookup key = _
      rw [lookup_sortEntries, lookup_canonicalEntries]
      rfl
  | _ => simp [canonical, entry]

theorem items?_canonical (v : Json) :
    (canonical ignored v).items? = v.items?.map (List.map (canonical ignored)) := by
  cases v with
  | arr items => rw [canonical, canonicalItems_eq]; rfl
  | _ => simp [canonical, items?]

theorem floatsPrinted_canonical (v : Json) (h : v.floatsPrinted = true) :
    (canonical ignored v).floatsPrinted = true := by
  induction v using Json.induction with
  | arr items ih =>
      rw [floatsPrinted, itemsPrinted_iff] at h
      rw [canonical, floatsPrinted, itemsPrinted_iff, canonicalItems_eq]
      intro v hv
      obtain ⟨w, hw, rfl⟩ := List.mem_map.mp hv
      exact ih w hw (h w hw)
  | obj entries ih =>
      rw [floatsPrinted, entriesPrinted_iff] at h
      rw [canonical, floatsPrinted, entriesPrinted_iff]
      intro e he
      have hmem := ((List.perm_insertionSort _ _).mem_iff).mp he
      clear he
      induction entries with
      | nil => exact absurd hmem (by simp [canonicalEntries])
      | cons d entries hind =>
          rw [canonicalEntries] at hmem
          have hrest := hind (fun e he => ih e (.tail _ he)) (fun e he => h e (.tail _ he))
          split at hmem
          · exact hrest hmem
          · rcases List.mem_cons.mp hmem with rfl | hmem
            · exact ih d (.head _) (h d (.head _))
            · exact hrest hmem
  | _ => exact h

end canonical

/-! ### Footprints -/

/-- The parts of a value a reader looks at. -/
inductive Footprint where
  | nothing
  | whole
  /-- The entry under a key, and whether there is one. -/
  | field (key : String) (of : Footprint)
  /-- Every item of a list. -/
  | each (of : Footprint)
  | both (a b : Footprint)
  /-- One of two readings, after a test. -/
  | branch (test : Json → Bool) (yes no : Footprint)

/-- Several entries of a dictionary. -/
def Footprint.fields (keys : List (String × Footprint)) : Footprint :=
  keys.foldr (fun e rest => .both (.field e.1 e.2) rest) .nothing

/-- What the reader sees. -/
def Footprint.read : Footprint → Json → Json
  | nothing, _ => null
  | whole, v => normal v
  | field key f, v => arr ((v.entry key).map f.read).toList
  | each f, v =>
      match v.items? with
      | some items => arr (items.map f.read)
      | none => normal v
  | both f g, v => arr [f.read v, g.read v]
  | branch test f g, v => arr [bool (test v), if test v then f.read v else g.read v]

section agree

variable (ignored : String → Bool)

/-- Two values agree where the reader looks at an entry under an ignored name. -/
def Footprint.Agree : Footprint → Json → Json → Prop
  | nothing, _, _ => True
  | whole, v, w => Unabridged ignored v ∧ Unabridged ignored w ∨ normal v = normal w
  | field key f, v, w =>
      if ignored key then (v.entry key).map f.read = (w.entry key).map f.read
      else ∀ x ∈ v.entry key, ∀ y ∈ w.entry key, f.Agree x y
  | each f, v, w =>
      match v.items?, w.items? with
      | some items, some items' => List.Forall₂ f.Agree items items'
      | _, _ => Unabridged ignored v ∧ Unabridged ignored w ∨ normal v = normal w
  | both f g, v, w => f.Agree v w ∧ g.Agree v w
  | branch test f g, v, w => test v = test w ∧ if test v then f.Agree v w else g.Agree v w

variable {ignored}

theorem normal_eq_iff {v w : Json} (h : canonical ignored v = canonical ignored w) :
    normal v = normal w ↔ Unabridged ignored v ∧ Unabridged ignored w ∨ normal v = normal w := by
  constructor
  · exact .inr
  · rintro (⟨hv, hw⟩ | heq)
    · exact hv.symm.trans (h.trans hw)
    · exact heq

theorem map_read_iff {f : Footprint} {items items' : List Json}
    (ih : ∀ {v w : Json}, canonical ignored v = canonical ignored w →
      (f.read v = f.read w ↔ f.Agree ignored v w))
    (h : items.map (canonical ignored) = items'.map (canonical ignored)) :
    items.map f.read = items'.map f.read ↔ List.Forall₂ (f.Agree ignored) items items' := by
  induction items generalizing items' with
  | nil =>
      obtain rfl : items' = [] := by simpa using h.symm
      simp
  | cons v items hind =>
      cases items' with
      | nil => simp at h
      | cons w items' =>
          rw [List.map_cons, List.map_cons, List.cons.injEq] at h
          rw [List.map_cons, List.map_cons, List.cons.injEq, List.forall₂_cons, ih h.1, hind h.2]

theorem toList_inj {α : Type} {a b : Option α} : a.toList = b.toList ↔ a = b := by
  cases a <;> cases b <;> simp

/-- Of two values with one canonical form a reader sees the same if and only if they agree under
the ignored names. -/
theorem read_eq_iff (f : Footprint) {v w : Json} (h : canonical ignored v = canonical ignored w) :
    f.read v = f.read w ↔ f.Agree ignored v w := by
  induction f generalizing v w with
  | nothing => exact iff_of_true rfl trivial
  | whole => exact normal_eq_iff h
  | field key f ih =>
      have hentry := congrArg (fun u => entry u key) h
      simp only [entry_canonical] at hentry
      simp only [Footprint.read, Footprint.Agree, arr.injEq, toList_inj]
      cases hkey : ignored key with
      | true => rw [if_pos rfl]
      | false =>
          simp only [hkey, Bool.false_eq_true, if_false] at hentry ⊢
          cases hv : v.entry key with
          | none =>
              have hw : w.entry key = none := by simpa [hv] using hentry
              simp [hw]
          | some x =>
              obtain ⟨y, hw, hxy⟩ : ∃ y, w.entry key = some y ∧
                  canonical ignored y = canonical ignored x := by simpa [hv] using hentry.symm
              simp [hw, ih hxy.symm]
  | each f ih =>
      have hitems := congrArg items? h
      rw [items?_canonical, items?_canonical] at hitems
      simp only [Footprint.read, Footprint.Agree]
      cases hv : v.items? with
      | none =>
          have hw : w.items? = none := by simpa [hv] using hitems
          rw [hw]
          exact normal_eq_iff h
      | some items =>
          obtain ⟨items', hw, hmap⟩ : ∃ items', w.items? = some items' ∧
              items'.map (canonical ignored) = items.map (canonical ignored) := by
            simpa [hv] using hitems.symm
          rw [hw]
          simp only [arr.injEq]
          exact map_read_iff ih hmap.symm
  | both f g ihf ihg =>
      simp only [Footprint.read, Footprint.Agree, arr.injEq, List.cons.injEq, and_true]
      rw [ihf h, ihg h]
  | branch test f g ihf ihg =>
      simp only [Footprint.read, Footprint.Agree, arr.injEq, List.cons.injEq, and_true, bool.injEq]
      constructor
      · rintro ⟨htest, hread⟩
        rw [← htest] at hread
        refine ⟨htest, ?_⟩
        split at hread
        · next hv => rwa [if_pos hv, ← ihf h]
        · next hv => rwa [if_neg hv, ← ihg h]
      · rintro ⟨htest, hagree⟩
        refine ⟨htest, ?_⟩
        rw [← htest]
        split at hagree
        · next hv => rwa [if_pos hv, if_pos hv, ihf h]
        · next hv => rwa [if_neg hv, if_neg hv, ihg h]

end agree

end Json
