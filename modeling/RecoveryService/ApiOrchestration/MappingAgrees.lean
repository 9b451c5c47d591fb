import RecoveryService.ApiOrchestration.Mapping

/-! # The three walks over a template agree

A template is rendered when all its paths are present (or, under the policy `null`, can be looked
up at all), it keeps its shape, and nothing but its paths is read from the context.  The last
module's functions are taken one text at a time first, then over the whole template. -/

namespace RecoveryService.ApiOrchestration

open Checks

/-! ### The paths of a template -/

mutual
/-- The paths of a template, as they stand in it. -/
def references : Json → List String
  | .obj entries => referencesOfEntries entries
  | .arr items => referencesOfItems items
  | .str s => tokens s
  | _ => []

def referencesOfItems : List Json → List String
  | [] => []
  | v :: items => references v ++ referencesOfItems items

def referencesOfEntries : List (String × Json) → List String
  | [] => []
  | (_, v) :: entries => references v ++ referencesOfEntries entries
end

variable {items : List Json}

theorem mem_referencesOfItems {path : String} :
    path ∈ referencesOfItems items ↔ ∃ v ∈ items, path ∈ references v := by
  induction items with
  | nil => simp [referencesOfItems]
  | cons v items ih => rw [referencesOfItems, List.mem_append, ih, List.exists_mem_cons_iff]

/-- The keys of a dictionary are not looked at. -/
theorem referencesOfEntries_eq (entries : List (String × Json)) :
    referencesOfEntries entries = referencesOfItems (entries.map Prod.snd) := by
  induction entries with
  | nil => rfl
  | cons e entries ih => rw [referencesOfEntries, ih, List.map_cons, referencesOfItems]

theorem entriesReferences_eq (validate : Bool) (entries : List (String × Json)) :
    entriesReferences validate entries = itemsReferences validate (entries.map Prod.snd) := by
  induction entries with
  | nil => rfl
  | cons e entries ih => rw [entriesReferences, ih, List.map_cons, itemsReferences]

theorem itemsReferences_ok {validate : Bool}
    (ih : ∀ v ∈ items, ∀ paths, mappingReferences validate v = .ok paths → paths = references v)
    {paths : List String} (h : itemsReferences validate items = .ok paths) :
    paths = referencesOfItems items := by
  induction items generalizing paths with
  | nil =>
      cases h
      rfl
  | cons v items ihl =>
      rw [List.forall_mem_cons] at ih
      rw [itemsReferences] at h
      obtain ⟨first, hfirst, h⟩ := bind_eq_ok.mp h
      obtain ⟨rest, hrest, h⟩ := bind_eq_ok.mp h
      cases h
      rw [referencesOfItems, ih.1 first hfirst, ihl ih.2 hrest]

/-- What is collected are the paths, whether the texts are validated or not. -/
theorem mappingReferences_ok {validate : Bool} {template : Json} {paths : List String}
    (h : mappingReferences validate template = .ok paths) : paths = references template := by
  induction template using Json.induction generalizing paths with
  | null | bool | num | float =>
      cases h
      rfl
  | str s =>
      obtain ⟨_, -, h⟩ := bind_eq_ok.mp h
      cases h
      rfl
  | arr items ih => exact itemsReferences_ok (fun v hv paths hpaths => ih v hv hpaths) h
  | obj entries ih =>
      rw [mappingReferences, entriesReferences_eq] at h
      rw [references, referencesOfEntries_eq]
      refine itemsReferences_ok (fun v hv paths hpaths => ?_) h
      obtain ⟨e, he, rfl⟩ := List.mem_map.mp hv
      exact ih e he hpaths

theorem itemsReferences_false (ih : ∀ v ∈ items, mappingReferences false v = .ok (references v)) :
    itemsReferences false items = .ok (referencesOfItems items) := by
  induction items with
  | nil => rfl
  | cons v items ihl =>
      rw [List.forall_mem_cons] at ih
      rw [itemsReferences, ih.1, ihl ih.2]
      rfl

/-- Without validation nothing is raised. -/
theorem mappingReferences_false (template : Json) :
    mappingReferences false template = .ok (references template) := by
  induction template using Json.induction with
  | null | bool | num | float => rfl
  | str s =>
      rw [mappingReferences, raiseIf, if_neg (fun h => Bool.noConfusion h.1)]
      rfl
  | arr items ih => exact itemsReferences_false ih
  | obj entries ih =>
      rw [mappingReferences, entriesReferences_eq, references, referencesOfEntries_eq]
      refine itemsReferences_false fun v hv => ?_
      obtain ⟨e, he, rfl⟩ := List.mem_map.mp hv
      exact ih e he

/-! ### Looking up -/

/-- On the way from `v` along the parts there is a list behind which an index stands that is too
long for `int`. -/
def LongIndex (v : Json) (parts : List (List Char)) : Prop :=
  ∃ before part behind items, parts = before ++ part :: behind ∧
    lookupParts v before = .ok (some (.arr items)) ∧ isIndex part = true ∧ maxStrDigits < part.length

/-- The values that a part leads to. -/
theorem lookupParts_cons {v : Json} {part : List Char} : (∃ next, lookupParts v [part] = .ok (some next) ∧
      ∀ parts, lookupParts v (part :: parts) = lookupParts next parts) ∨
    (∀ parts, lookupParts v (part :: parts) = .ok none) ∨
    (∃ items, v = .arr items ∧ isIndex part = true ∧ maxStrDigits < part.length) ∧
      ∃ text, ∀ parts, lookupParts v (part :: parts) = .error text := by
  cases v with
  | obj entries =>
      cases hfound : entries.lookup (String.ofList part) with
      | none =>
          refine Or.inr (Or.inl fun parts => ?_)
          rw [lookupParts, hfound]
      | some next =>
          refine Or.inl ⟨next, ?_, fun parts => ?_⟩
          · rw [lookupParts, hfound]
            rfl
          · rw [lookupParts, hfound]
  | arr items =>
      by_cases hindex : isIndex part = true
      · by_cases hlong : maxStrDigits < part.length
        · refine Or.inr (Or.inr ⟨⟨items, rfl, hindex, hlong⟩,
            "Exceeds the limit (4300 digits) for integer string conversion", fun parts => ?_⟩)
          rw [lookupParts, if_pos hindex, if_pos hlong]
        · cases hfound : items[indexOf part]? with
          | none =>
              refine Or.inr (Or.inl fun parts => ?_)
              rw [lookupParts, if_pos hindex, if_neg hlong, hfound]
          | some next =>
              refine Or.inl ⟨next, ?_, fun parts => ?_⟩
              · rw [lookupParts, if_pos hindex, if_neg hlong, hfound]
                rfl
              · rw [lookupParts, if_pos hindex, if_neg hlong, hfound]
      · refine Or.inr (Or.inl fun parts => ?_)
        rw [lookupParts, if_neg hindex]
  | null | bool | num | float | str => exact Or.inr (Or.inl fun _ => rfl)

variable {parts : List (List Char)}

theorem longIndex_of_error {v : Json} {text : String} (h : lookupParts v parts = .error text) : LongIndex v parts := by
  induction parts generalizing v with
  | nil => cases h
  | cons part parts ih =>
      obtain ⟨next, hone, hnext⟩ | hnone | ⟨⟨items, rfl, hindex, hlong⟩, -⟩ :=
        @lookupParts_cons v part
      · rw [hnext] at h
        obtain ⟨before, part', behind, items, hparts, hbefore, hlong⟩ := ih h
        refine ⟨part :: before, part', behind, items, ?_, ?_, hlong⟩
        · rw [hparts, List.cons_append]
        · rw [hnext, hbefore]
      · rw [hnone] at h
        cases h
      · exact ⟨[], part, parts, items, rfl, rfl, hindex, hlong⟩

theorem error_of_longIndex {v : Json} (h : LongIndex v parts) : ∃ text, lookupParts v parts = .error text := by
  obtain ⟨before, part, behind, items, rfl, hbefore, hindex, hlong⟩ := h
  induction before generalizing v with
  | nil =>
      cases hbefore
      exact ⟨_, by rw [List.nil_append, lookupParts, if_pos hindex, if_pos hlong]⟩
  | cons first before ih =>
      obtain ⟨next, -, hnext⟩ | hnone | ⟨-, text, htext⟩ := @lookupParts_cons v first
      · rw [hnext] at hbefore
        rw [List.cons_append, hnext]
        exact ih hbefore
      · rw [hnone] at hbefore
        cases hbefore
      · rw [htext] at hbefore
        cases hbefore

/-- A path can be looked up unless it comes to such an index. -/
theorem lookupPresent_ok_iff {context : Json} {path : String} :
    (∃ found, lookupPresent context path = .ok found) ↔ ¬ LongIndex context (pathParts path) := by
  unfold lookupPresent
  constructor
  · rintro ⟨found, hfound⟩ hlong
    obtain ⟨text, htext⟩ := error_of_longIndex hlong
    rw [hfound] at htext
    cases htext
  · intro hlong
    cases h : lookupParts context (pathParts path) with
    | ok found => exact ⟨found, rfl⟩
    | error text => exact absurd (longIndex_of_error h) hlong

/-! ### Rendering -/

section render

variable {context : Json} {policy : String}

/-- The path is there, or the policy does without it. -/
def Resolves (context : Json) (policy : String) (path : String) : Prop :=
  ∃ found, lookupPresent context path = .ok found ∧ (policy = "null" ∨ found ≠ none)

/-- A lookup and its continuation return exactly when the path resolves. -/
theorem lookup_returns_iff {α : Type} {path : String} {f : Json → α} {default : α} {text : String} : (∃ r, (do
      match ← lookupPresent context path with
      | some result => Except.ok (f result)
      | none => if policy = "null" then .ok default else .error text) = .ok r) ↔
      Resolves context policy path := by
  unfold Resolves
  cases hlookup : lookupPresent context path with
  | error e =>
      constructor
      · rintro ⟨r, hr⟩
        cases hr
      · rintro ⟨found, hfound, -⟩
        cases hfound
  | ok found =>
      cases found with
      | some result => exact ⟨fun _ => ⟨_, rfl, Or.inr (by simp)⟩, fun _ => ⟨_, rfl⟩⟩
      | none =>
          show (∃ r, (if policy = "null" then Except.ok default else .error text) = .ok r) ↔ _
          by_cases hnull : policy = "null"
          · rw [if_pos hnull]
            exact ⟨fun _ => ⟨none, rfl, Or.inl hnull⟩, fun _ => ⟨_, rfl⟩⟩
          · rw [if_neg hnull]
            constructor
            · rintro ⟨r, hr⟩
              cases hr
            · rintro ⟨found, hfound, hor⟩
              cases hfound
              exact absurd rfl (hor.resolve_left hnull)

theorem renderPiece_returns_iff {piece : Piece} : (∃ t, renderPiece context policy piece = .ok t) ↔
      ∀ path, piece.path? = some path → Resolves context policy path := by
  cases piece with
  | char c =>
      refine ⟨fun _ path hpath => ?_, fun _ => ⟨[c], rfl⟩⟩
      cases hpath
  | token chars =>
      have hlookup := @lookup_returns_iff context policy (List Char) (String.ofList chars) embedded []
        (missingPath (String.ofList chars))
      show (∃ t, renderPiece context policy (.token chars) = .ok t) ↔
        ∀ path, some (String.ofList chars) = some path → Resolves context policy path
      simp only [Option.some.injEq, forall_eq']
      exact hlookup

theorem renderText_returns_iff {s : String} :
    (∃ r, renderText context policy s = .ok r) ↔ ∀ path ∈ tokens s, Resolves context policy path := by
  unfold renderText
  cases hfull : fullToken s with
  | some path =>
      rw [tokens_of_fullToken hfull]
      simp only [List.mem_singleton, forall_eq]
      exact lookup_returns_iff
  | none =>
      have hpaths : (∀ path ∈ tokens s, Resolves context policy path) ↔
          ∀ piece ∈ scan s, ∃ t, renderPiece context policy piece = .ok t := by
        unfold tokens
        simp only [renderPiece_returns_iff, List.mem_filterMap]
        exact ⟨fun h piece hmem path hpath => h path ⟨piece, hmem, hpath⟩,
          fun h path ⟨piece, hmem, hpath⟩ => h piece hmem path hpath⟩
      rw [hpaths]
      constructor
      · rintro ⟨r, hr⟩ piece hmem
        obtain ⟨texts, htexts, -⟩ := bind_eq_ok.mp hr
        obtain ⟨t, -, ht⟩ := (mapM_eq_ok htexts).1 piece hmem
        exact ⟨t, ht⟩
      · intro h
        obtain ⟨texts, htexts⟩ := mapM_returns h
        exact ⟨_, bind_eq_ok.mpr ⟨texts, htexts, rfl⟩⟩

theorem renderItems_eq (items : List Json) :
    renderItems context policy items = items.mapM (render context policy) := by
  induction items with
  | nil => rfl
  | cons v items ih => rw [renderItems, ih, List.mapM_cons]

/-- The values of a dictionary are rendered like a list, and its keys stay. -/
theorem renderEntries_eq (entries : List (String × Json)) : renderEntries context policy entries =
      ((entries.map Prod.snd).mapM (render context policy)).map
        (fun results => (entries.map Prod.fst).zip results) := by
  induction entries with
  | nil => rfl
  | cons e entries ih =>
      simp only [renderEntries, ih, List.map_cons, List.mapM_cons]
      cases render context policy e.2 with
      | error text => rfl
      | ok result => cases (entries.map Prod.snd).mapM (render context policy) <;> rfl

variable {template : Json}

theorem render_returns_iff : (∃ r, render context policy template = .ok r) ↔
      ∀ path ∈ references template, Resolves context policy path := by
  have hitems : ∀ items : List Json,
      (∀ v ∈ items, (∃ r, render context policy v = .ok r) ↔
        ∀ path ∈ references v, Resolves context policy path) →
      ((∃ r, items.mapM (render context policy) = .ok r) ↔
        ∀ path ∈ referencesOfItems items, Resolves context policy path) := by
    intro items ih
    simp only [mem_referencesOfItems]
    constructor
    · rintro ⟨r, hr⟩ path ⟨v, hv, hpath⟩
      obtain ⟨result, -, hresult⟩ := (mapM_eq_ok hr).1 v hv
      exact (ih v hv).mp ⟨result, hresult⟩ path hpath
    · exact fun h => mapM_returns fun v hv => (ih v hv).mpr fun path hpath => h path ⟨v, hv, hpath⟩
  induction template using Json.induction with
  | null | bool | num | float => exact ⟨fun _ path hpath => (by cases hpath), fun _ => ⟨_, rfl⟩⟩
  | str s => exact renderText_returns_iff
  | arr items ih =>
      rw [references, ← hitems items ih, render, renderItems_eq]
      constructor
      · rintro ⟨r, hr⟩
        obtain ⟨results, hresults, -⟩ := bind_eq_ok.mp hr
        exact ⟨results, hresults⟩
      · rintro ⟨results, hresults⟩
        exact ⟨_, bind_eq_ok.mpr ⟨results, hresults, rfl⟩⟩
  | obj entries ih =>
      have ihvalues : ∀ v ∈ entries.map Prod.snd, (∃ r, render context policy v = .ok r) ↔
          ∀ path ∈ references v, Resolves context policy path := by
        intro v hv
        obtain ⟨e, he, rfl⟩ := List.mem_map.mp hv
        exact ih e he
      rw [references, referencesOfEntries_eq, ← hitems _ ihvalues, render, renderEntries_eq]
      constructor
      · rintro ⟨r, hr⟩
        obtain ⟨results, hresults, -⟩ := bind_eq_ok.mp hr
        obtain ⟨values, hvalues, -⟩ := map_eq_ok.mp hresults
        exact ⟨values, hvalues⟩
      · rintro ⟨values, hvalues⟩
        exact ⟨_, bind_eq_ok.mpr ⟨_, map_eq_ok.mpr ⟨values, hvalues, rfl⟩, rfl⟩⟩

/-- The policy is checked first. -/
theorem renderMapping_eq_ok {r : Json} : renderMapping context policy template = .ok r ↔
      (policy = "error" ∨ policy = "null") ∧ render context policy template = .ok r := by
  unfold renderMapping
  rw [bind_eq_ok]
  simp only [raiseIf_eq_ok, exists_const]
  refine and_congr_left fun _ => ?_
  tauto

/-! ### What a rendered template is like -/

/-- A rendering keeps the shape of its template; only texts are replaced. -/
inductive Rendered : Json → Json → Prop
  | null : Rendered .null .null
  | bool (b : Bool) : Rendered (.bool b) (.bool b)
  | num (n : ℤ) : Rendered (.num n) (.num n)
  | float (t : String) : Rendered (.float t) (.float t)
  | token {s path : String} (result : Json) : fullToken s = some path → Rendered (.str s) result
  | text {s : String} (t : String) : fullToken s = none → Rendered (.str s) (.str t)
  | arr {items results : List Json} : List.Forall₂ Rendered items results →
      Rendered (.arr items) (.arr results)
  | obj {entries results : List (String × Json)} :
      entries.map Prod.fst = results.map Prod.fst →
      List.Forall₂ Rendered (entries.map Prod.snd) (results.map Prod.snd) →
      Rendered (.obj entries) (.obj results)

theorem renderText_rendered {s : String} {r : Json} (h : renderText context policy s = .ok r) :
    Rendered (.str s) r := by
  unfold renderText at h
  cases hfull : fullToken s with
  | some path => exact .token r hfull
  | none =>
      rw [hfull] at h
      obtain ⟨texts, -, h⟩ := bind_eq_ok.mp h
      cases h
      exact .text _ hfull

theorem render_rendered {r : Json} (h : render context policy template = .ok r) : Rendered template r := by
  have hitems : ∀ items results : List Json,
      (∀ v ∈ items, ∀ r, render context policy v = .ok r → Rendered v r) →
      items.mapM (render context policy) = .ok results → List.Forall₂ Rendered items results := by
    intro items results ih hresults
    have hall := mapM_forall₂ hresults
    rw [List.forall₂_iff_get] at hall ⊢
    exact ⟨hall.1, fun i h₁ h₂ => ih _ (List.get_mem _ _) _ (hall.2 i h₁ h₂)⟩
  induction template using Json.induction generalizing r with
  | null =>
      cases h
      exact .null
  | bool b =>
      cases h
      exact .bool b
  | num n =>
      cases h
      exact .num n
  | float t =>
      cases h
      exact .float t
  | str s => exact renderText_rendered h
  | arr items ih =>
      rw [render, renderItems_eq] at h
      obtain ⟨results, hresults, h⟩ := bind_eq_ok.mp h
      cases h
      exact .arr (hitems items results (fun v hv r hr => ih v hv hr) hresults)
  | obj entries ih =>
      rw [render, renderEntries_eq] at h
      obtain ⟨results, hresults, h⟩ := bind_eq_ok.mp h
      obtain ⟨values, hvalues, hzip⟩ := map_eq_ok.mp hresults
      cases h
      have hlen : (entries.map Prod.fst).length = values.length := by
        rw [length_of_mapM hvalues, List.length_map, List.length_map]
      subst hzip
      refine .obj ?_ ?_
      · exact (List.map_fst_zip hlen.le).symm
      · rw [List.map_snd_zip hlen.ge]
        refine hitems _ values (fun v hv r hr => ?_) hvalues
        obtain ⟨e, he, rfl⟩ := List.mem_map.mp hv
        exact ih e he hr

theorem mapM_congr {α β : Type} {f g : α → Except String β} {l : List α} (h : ∀ a ∈ l, f a = g a) :
    l.mapM f = l.mapM g := by
  induction l with
  | nil => rfl
  | cons a l ih =>
      rw [List.forall_mem_cons] at h
      rw [List.mapM_cons, List.mapM_cons, h.1, ih h.2]

/-- Contexts that agree on the paths of a template render it alike. -/
theorem render_congr {context' : Json}
    (h : ∀ path ∈ references template, lookupPresent context' path = lookupPresent context path) :
    render context' policy template = render context policy template := by
  have hpiece : ∀ piece : Piece, (∀ path, piece.path? = some path →
      lookupPresent context' path = lookupPresent context path) →
      renderPiece context' policy piece = renderPiece context policy piece := by
    intro piece hp
    cases piece with
    | char c => rfl
    | token chars =>
        have hsame : lookupPresent context' (String.ofList chars) =
            lookupPresent context (String.ofList chars) := hp _ rfl
        simp only [renderPiece, hsame]
  induction template using Json.induction with
  | null | bool | num | float => rfl
  | str s =>
      rw [render, render]
      unfold renderText
      cases hfull : fullToken s with
      | some path =>
          rw [references, tokens_of_fullToken hfull] at h
          simp only [h path List.mem_cons_self]
      | none =>
          have hsame : (scan s).mapM (renderPiece context' policy) =
              (scan s).mapM (renderPiece context policy) :=
            mapM_congr fun piece hmem => hpiece piece fun path hpath =>
              h path (List.mem_filterMap.mpr ⟨piece, hmem, hpath⟩)
          simp only [hsame]
  | arr items ih =>
      rw [references] at h
      rw [render, render, renderItems_eq, renderItems_eq]
      rw [mapM_congr fun v hv => ih v hv fun path hpath =>
        h path (mem_referencesOfItems.mpr ⟨v, hv, hpath⟩)]
  | obj entries ih =>
      rw [references, referencesOfEntries_eq] at h
      rw [render, render, renderEntries_eq, renderEntries_eq]
      have hsame : (entries.map Prod.snd).mapM (render context' policy) =
          (entries.map Prod.snd).mapM (render context policy) := by
        refine mapM_congr fun v hv => ?_
        obtain ⟨e, he, rfl⟩ := List.mem_map.mp hv
        exact ih e he fun path hpath => h path (mem_referencesOfItems.mpr ⟨e.2, hv, hpath⟩)
      rw [hsame]

end render

/-! ### Validated templates -/

/-- The paths of a validated template start with an accepted root. -/
theorem validateMappingConfig_roots {node : Node} (h : validateMappingConfig node = .ok ()) :
    ∀ path ∈ references (node.settings.get "template"),
      ∃ root ∈ mappingContextRoots, ∃ parts, pathParts path = root :: parts := by
  intro path hpath
  obtain ⟨_, -, h⟩ := bind_eq_ok.mp h
  obtain ⟨_, -, h⟩ := bind_eq_ok.mp h
  obtain ⟨paths, hpaths, h⟩ := bind_eq_ok.mp h
  rw [← mappingReferences_ok hpaths] at hpath
  have hroot := forM_eq_ok h path hpath
  rw [raiseIf_eq_ok, not_not] at hroot
  have hne : ∀ root ∈ mappingContextRoots, root ≠ [] := by decide
  exact ⟨pathRoot path, hroot, pathParts_of_root (hne _ hroot)⟩

/-! ### The walks together -/

/-- Rendering a template over a context goes as its paths say. -/
structure Agrees (template context : Json) (paths : List String) : Prop where
  /-- Under `error` it succeeds exactly when all paths are present. -/
  error : (∃ r, renderMapping context "error" template = .ok r) ↔
    ∀ path ∈ paths, ∃ v, lookupPresent context path = .ok (some v)
  /-- Under `null` it succeeds. -/
  null : ∃ r, renderMapping context "null" template = .ok r
  /-- What is rendered has the shape of the template. -/
  shape : ∀ policy r, renderMapping context policy template = .ok r → Rendered template r
  /-- Nothing but the paths is read. -/
  reads : ∀ policy context',
    (∀ path ∈ paths, lookupPresent context' path = lookupPresent context path) →
      renderMapping context' policy template = renderMapping context policy template
  /-- The paths of a validated template start with an accepted root. -/
  roots : ∀ node : Node, node.settings.get "template" = template →
    validateMappingConfig node = .ok () →
      ∀ path ∈ paths, ∃ root ∈ mappingContextRoots, ∃ parts, pathParts path = root :: parts

/-- An index of 4301 digits. -/
def longIndex : List Char := List.replicate 4301 '1'

/-- The path of the index in the input of a run. -/
def longPath : List Char := "input".toList ++ '.' :: longIndex

/-- A template with one text, the token of the path. -/
def longTemplate : Json := .arr [.str (String.ofList (tokenOf longPath))]

theorem mem_longIndex {c : Char} (h : c ∈ longIndex) : c = '1' := List.eq_of_mem_replicate h

theorem references_longTemplate : references longTemplate = [String.ofList longPath] := by
  have hinput : "input".toList.all isPathChar = true := by decide
  have hchars : ∀ c ∈ longPath, isPathChar c = true := by
    intro c hc
    obtain hc | hc := List.mem_append.mp hc
    · exact List.all_eq_true.mp hinput c hc
    · obtain rfl | hc := List.mem_cons.mp hc
      · decide
      · rw [mem_longIndex hc]
        decide
  have hne : longPath ≠ [] := List.append_ne_nil_of_left_ne_nil (by decide) _
  rw [longTemplate, references, referencesOfItems, referencesOfItems, references,
    tokens_of_fullToken (fullToken_tokenOf hne hchars), List.append_nil]

end RecoveryService.ApiOrchestration
