import RecoveryService.SecurityAccess.Sql

/-! # Which tables a resolved statement reads

`reads` follows the scoping rules of SQL: the names of a `WITH` hide unqualified references in the
rest of its query and in the CTEs behind them, a recursive CTE hides its own name in itself too.
`cte_names` has the names of all CTEs of the statement and hides qualified references as well.  A
resolved statement therefore reads no mapped source unless a reference to one has the name of a CTE
that does not hide it, or is replaced by a view that is a mapped source itself
(`resolved_reads_iff`). -/

namespace RecoveryService.SecurityAccess

open Checks Trees

variable (casefold : String → String)

/-- The names the `WITH` among the arguments of a query defines. -/
def withNames (children : List (Rose Node)) : List String :=
  children.flatMap fun
    | .node (.withClause _, _) ctes => ctes.filterMap (fun cte => cteName casefold cte.label.1)
    | _ => []

/-- A reference to a table that the names in scope do not hide. -/
def ownReads (scope : List String) (node : Node) : List TableRef :=
  match node with
  | (.table ref, false) =>
      if ref.name = "" ∨ (ref.db = "" ∧ casefold ref.name ∈ scope) then [] else [ref]
  | _ => []

/-- The arguments of a query except its `WITH` are in the scope of the `WITH`. -/
def scopeOf (inner outer : List String) (tree : Rose Node) : List String :=
  match tree.label.1 with
  | .withClause _ => outer
  | _ => inner

mutual
/-- The references to physical tables a tree reads. -/
def reads (scope : List String) : Rose Node → List TableRef
  | .node (label, written) children =>
      match label with
      | .withClause recursive => readsCtes recursive scope children
      | _ =>
          ownReads casefold scope (label, written) ++
            readsAll (scope ++ withNames casefold children) scope children
def readsAll (inner outer : List String) : List (Rose Node) → List TableRef
  | [] => []
  | child :: children =>
      reads (scopeOf inner outer child) child ++ readsAll inner outer children
def readsCtes (recursive : Bool) (scope : List String) : List (Rose Node) → List TableRef
  | [] => []
  | cte :: ctes =>
      let names := scope ++ (cteName casefold cte.label.1).toList
      reads (if recursive then names else scope) cte ++ readsCtes recursive names ctes
end

/-- Some mapping is of the table. -/
def IsSource (mappings : List Mapping) (key : SourceKey) : Prop :=
  ∃ m ∈ mappings, m.sourceKey casefold = key

instance (mappings : List Mapping) (key : SourceKey) : Decidable (IsSource casefold mappings key) := by
  unfold IsSource
  infer_instance

/-- The key of the access view. -/
def Mapping.accessKey (m : Mapping) : SourceKey :=
  (casefold m.accessDatabase, casefold m.accessTable)

variable {casefold} {defaultDatabase : Option String} {mappings : List Mapping}
  {expectedSources : Option (List SourceKey)} {names : List String}

/-! ### Reading a rewritten tree -/

variable {scope : List String} {t : TableRef}
variable {node : Node}

theorem mem_ownReads (h : t ∈ ownReads casefold scope node) : node = (.table t, false) ∧ t.name ≠ "" := by
  unfold ownReads at h
  split at h
  · next ref =>
      split_ifs at h with hhidden
      · cases h
      · rw [List.mem_singleton.mp h]
        exact ⟨rfl, (not_or.mp hhidden).1⟩
  · cases h

/-- What is read stands in the tree. -/
theorem mem_labels_of_reads (tree : Rose Node) (h : t ∈ reads casefold scope tree) :
    (.table t, false) ∈ tree.labels ∧ t.name ≠ "" := by
  induction tree using Rose.induction generalizing scope with
  | node node children ih =>
      have hall : ∀ (cs : List (Rose Node)) inner outer, (∀ c ∈ cs, c ∈ children) →
          t ∈ readsAll casefold inner outer cs →
            (∃ c ∈ children, (.table t, false) ∈ c.labels) ∧ t.name ≠ "" := by
        intro cs inner outer hcs hmem
        induction cs with
        | nil => cases hmem
        | cons c cs ihcs =>
            rw [List.forall_mem_cons] at hcs
            unfold readsAll at hmem
            obtain hmem | hmem := List.mem_append.mp hmem
            · obtain ⟨hlabel, hname⟩ := ih c hcs.1 hmem
              exact ⟨⟨c, hcs.1, hlabel⟩, hname⟩
            · exact ihcs hcs.2 hmem
      have hctes : ∀ (cs : List (Rose Node)) recursive scope, (∀ c ∈ cs, c ∈ children) →
          t ∈ readsCtes casefold recursive scope cs →
            (∃ c ∈ children, (.table t, false) ∈ c.labels) ∧ t.name ≠ "" := by
        intro cs recursive scope hcs hmem
        induction cs generalizing scope with
        | nil => cases hmem
        | cons c cs ihcs =>
            rw [List.forall_mem_cons] at hcs
            unfold readsCtes at hmem
            obtain hmem | hmem := List.mem_append.mp hmem
            · obtain ⟨hlabel, hname⟩ := ih c hcs.1 hmem
              exact ⟨⟨c, hcs.1, hlabel⟩, hname⟩
            · exact ihcs _ hcs.2 hmem
      rw [Rose.mem_labels_node]
      unfold reads at h
      split at h
      · obtain ⟨hlabel, hname⟩ := hctes children _ scope (fun _ hc => hc) h
        exact ⟨Or.inr hlabel, hname⟩
      · obtain hown | hmem := List.mem_append.mp h
        · obtain ⟨hlabel, hname⟩ := mem_ownReads hown
          exact ⟨Or.inl hlabel.symm, hname⟩
        · obtain ⟨hlabel, hname⟩ := hall children _ scope (fun _ hc => hc) hmem
          exact ⟨Or.inr hlabel, hname⟩

/-- The names stand for tables that stay; the others may become qualified. -/
structure Keeps (casefold : String → String) (names : List String) (f : TableRef → TableRef) : Prop where
  hidden : ∀ t, t.name = "" ∨ casefold t.name ∈ names → f t = t
  qualified : ∀ t, f t = t ∨ ((f t).db ≠ "" ∧ (f t).name ≠ "")

@[simp] theorem cteName_onTables (f : TableRef → TableRef) (node : Node) :
    cteName casefold (onTables f node).1 = cteName casefold node.1 := by
  unfold onTables
  split <;> rfl

variable {f : TableRef → TableRef}

theorem ownReads_onTables (hf : Keeps casefold names f) (hscope : scope ⊆ names) (node : Node) :
    ownReads casefold scope (onTables f node) = (ownReads casefold scope node).map f := by
  unfold onTables
  split
  · next ref =>
      unfold ownReads
      by_cases hhidden : ref.name = "" ∨ (ref.db = "" ∧ casefold ref.name ∈ scope)
      · have hsame : f ref = ref := by
          apply hf.hidden
          exact hhidden.imp_right (fun h => hscope h.2)
        dsimp only
        rw [hsame, if_pos hhidden]
        rfl
      · have hread : ¬ ((f ref).name = "" ∨ ((f ref).db = "" ∧ casefold (f ref).name ∈ scope)) := by
          obtain hsame | ⟨hdb, hname⟩ := hf.qualified ref
          · rw [hsame]
            exact hhidden
          · rintro (hempty | ⟨hempty, -⟩)
            · exact hname hempty
            · exact hdb hempty
        dsimp only
        rw [if_neg hread, if_neg hhidden]
        rfl
  · next hother =>
      unfold ownReads
      split
      · next ref => exact absurd rfl (hother ref)
      · rfl

theorem scopeOf_onTables (f : TableRef → TableRef) (inner outer : List String) (tree : Rose Node) :
    scopeOf inner outer (tree.map (onTables f)) = scopeOf inner outer tree := by
  unfold scopeOf
  rw [Rose.label_map]
  obtain ⟨label, written⟩ := tree.label
  cases label <;> cases written <;> rfl

theorem withNames_onTables (f : TableRef → TableRef) (children : List (Rose Node)) :
    withNames casefold (children.map (Rose.map (onTables f))) = withNames casefold children := by
  unfold withNames
  rw [List.flatMap_map]
  apply List.flatMap_congr
  intro child _
  cases child with
  | node node ctes =>
      obtain ⟨label, written⟩ := node
      rw [Rose.map_node]
      cases label with
      | withClause recursive =>
          have hsame : (ctes.map (Rose.map (onTables f))).filterMap
              (fun cte => cteName casefold cte.label.1) =
                ctes.filterMap (fun cte => cteName casefold cte.label.1) := by
            rw [List.filterMap_map]
            apply List.filterMap_congr
            intro cte _
            rw [Function.comp_apply, Rose.label_map, cteName_onTables]
          cases written <;> exact hsame
      | _ => cases written <;> rfl

/-- The names of the CTEs of a tree are among the names. -/
def NamesIn (casefold : String → String) (names : List String) (tree : Rose Node) : Prop :=
  ∀ node ∈ tree.labels, ∀ name, cteName casefold node.1 = some name → name ∈ names

variable {children : List (Rose Node)}

theorem NamesIn.child (h : NamesIn casefold names (.node node children)) {child : Rose Node}
    (hchild : child ∈ children) : NamesIn casefold names child :=
  fun n hn => h n (Rose.mem_labels_node.mpr (Or.inr ⟨child, hchild, hn⟩))

theorem NamesIn.root {tree : Rose Node} (h : NamesIn casefold names tree) :
    (cteName casefold tree.label.1).toList ⊆ names := by
  intro name hname
  rw [Option.mem_toList] at hname
  cases tree with
  | node node children => exact h node (Rose.mem_labels_node.mpr (Or.inl rfl)) name hname

theorem NamesIn.withNames (h : NamesIn casefold names (.node node children)) : withNames casefold children ⊆ names := by
  intro name hname
  obtain ⟨child, hchild, hname⟩ := List.mem_flatMap.mp hname
  have hin := h.child hchild
  split at hname
  · next recursive written ctes =>
      obtain ⟨cte, hcte, hname⟩ := List.mem_filterMap.mp hname
      exact (hin.child hcte).root (Option.mem_toList.mpr hname)
  · cases hname

/-- Rewriting tables that no name hides commutes with reading. -/
theorem reads_onTables (hf : Keeps casefold names f) (tree : Rose Node) (hscope : scope ⊆ names)
    (hnames : NamesIn casefold names tree) :
    reads casefold scope (tree.map (onTables f)) = (reads casefold scope tree).map f := by
  induction tree using Rose.induction generalizing scope with
  | node node children ih =>
      have hall : ∀ (cs : List (Rose Node)) (inner outer : List String), (∀ c ∈ cs, c ∈ children) →
          inner ⊆ names → outer ⊆ names →
            readsAll casefold inner outer (cs.map (Rose.map (onTables f))) =
              (readsAll casefold inner outer cs).map f := by
        intro cs inner outer hcs hinner houter
        induction cs with
        | nil => rfl
        | cons c cs ihcs =>
            rw [List.forall_mem_cons] at hcs
            have hc : scopeOf inner outer c ⊆ names := by
              unfold scopeOf
              split
              · exact houter
              · exact hinner
            rw [List.map_cons]
            unfold readsAll
            rw [scopeOf_onTables, ih c hcs.1 hc (hnames.child hcs.1), ihcs hcs.2, List.map_append]
      have hctes : ∀ (cs : List (Rose Node)) recursive (scope : List String),
          (∀ c ∈ cs, c ∈ children) → scope ⊆ names →
            readsCtes casefold recursive scope (cs.map (Rose.map (onTables f))) =
              (readsCtes casefold recursive scope cs).map f := by
        intro cs recursive scope hcs hscope
        induction cs generalizing scope with
        | nil => rfl
        | cons c cs ihcs =>
            rw [List.forall_mem_cons] at hcs
            have hin := hnames.child hcs.1
            have hmore : scope ++ (cteName casefold c.label.1).toList ⊆ names :=
              List.append_subset.mpr ⟨hscope, hin.root⟩
            have hc : (if recursive then scope ++ (cteName casefold c.label.1).toList else scope) ⊆
                names := by
              split_ifs
              · exact hmore
              · exact hscope
            rw [List.map_cons]
            unfold readsCtes
            dsimp only
            rw [Rose.label_map, cteName_onTables, ih c hcs.1 hc hin, ihcs _ hcs.2 hmore,
              List.map_append]
      obtain ⟨label, written⟩ := node
      rw [Rose.map_node]
      by_cases hwith : ∃ recursive, label = .withClause recursive
      · obtain ⟨recursive, rfl⟩ := hwith
        exact hctes children recursive scope (fun _ hc => hc) hscope
      · have hreads : ∀ (node : Node) cs, (¬ ∃ recursive, node.1 = .withClause recursive) →
            reads casefold scope (.node node cs) = ownReads casefold scope node ++
              readsAll casefold (scope ++ withNames casefold cs) scope cs := by
          intro node cs hnode
          obtain ⟨label, written⟩ := node
          unfold reads
          split
          · next recursive => exact absurd ⟨recursive, rfl⟩ hnode
          · rfl
        have hwith' : ¬ ∃ recursive, (onTables f (label, written)).1 = .withClause recursive := by
          unfold onTables
          split
          · rintro ⟨_, h⟩
            cases h
          · exact hwith
        rw [hreads _ _ hwith', hreads _ _ hwith, withNames_onTables, ownReads_onTables hf hscope,
          hall children _ scope (fun _ hc => hc)
            (List.append_subset.mpr ⟨hscope, hnames.withNames⟩) hscope, List.map_append]

/-! ### What the loop does to a table -/

theorem resolveTable_some {r : Resolved}
    (h : resolveTable casefold defaultDatabase mappings expectedSources names t = .ok (some r)) :
    t.name ≠ "" ∧ casefold t.name ∉ names ∧
      IsSource casefold mappings (tableKey casefold defaultDatabase t) ∧
        ∀ m ∈ mappings, m.sourceKey casefold = tableKey casefold defaultDatabase t →
          r.table = { db := m.accessDatabase, name := m.accessTable, aliasName := t.aliasName } := by
  unfold resolveTable at h
  split_ifs at h with hhidden
  · cases h
  · dsimp only at h
    refine ⟨(not_or.mp hhidden).1, (not_or.mp hhidden).2, ?_⟩
    generalize hfound : mappingsOf casefold mappings (tableKey casefold defaultDatabase t) = found at h
    have hmem : ∀ m, m ∈ found ↔
        m ∈ mappings ∧ m.sourceKey casefold = tableKey casefold defaultDatabase t := by
      intro m
      rw [← hfound, mappingsOf, List.mem_filter, decide_eq_true_iff]
    cases found with
    | nil =>
        dsimp only at h
        split_ifs at h
        cases h
    | cons first rest =>
        dsimp only at h
        split_ifs at h
        split at h
        · next access haccess =>
            rw [Except.ok.injEq, Option.some.injEq] at h
            refine ⟨⟨first, (hmem first).mp List.mem_cons_self⟩, fun m hm hkey => ?_⟩
            have hsame : m.access ∈ ((first :: rest).map Mapping.access).dedup := by
              rw [List.mem_dedup]
              exact List.mem_map_of_mem ((hmem m).mpr ⟨hm, hkey⟩)
            rw [haccess, List.mem_singleton] at hsame
            rw [← h, ← hsame]
            rfl
        · cases h

theorem resolveTable_none
    (h : resolveTable casefold defaultDatabase mappings expectedSources names t = .ok none) :
    t.name = "" ∨ casefold t.name ∈ names ∨
      ¬ IsSource casefold mappings (tableKey casefold defaultDatabase t) := by
  unfold resolveTable at h
  split_ifs at h with hhidden
  · tauto
  · dsimp only at h
    right; right
    rintro ⟨m, hm, hkey⟩
    generalize hfound : mappingsOf casefold mappings (tableKey casefold defaultDatabase t) = found at h
    have hmem : m ∈ found := by
      rw [← hfound, mappingsOf, List.mem_filter, decide_eq_true_iff]
      exact ⟨hm, hkey⟩
    cases found with
    | nil => cases hmem
    | cons first rest =>
        dsimp only at h
        split_ifs at h
        split at h <;> cases h

theorem rewrite_of_some {r : Resolved}
    (h : resolveTable casefold defaultDatabase mappings expectedSources names t = .ok (some r)) :
    rewrite casefold defaultDatabase mappings expectedSources names t = r.table := by
  unfold rewrite
  rw [h]

theorem rewrite_keeps : Keeps casefold names
    (rewrite casefold defaultDatabase mappings expectedSources names) where
  hidden t ht := by
    unfold rewrite
    split
    · next r hr =>
        obtain ⟨hname, hnames, -⟩ := resolveTable_some hr
        exact (ht.elim hname hnames).elim
    · rfl
  qualified t := by
    unfold rewrite
    split
    · next r hr =>
        right
        obtain ⟨-, -, ⟨m, hm, hkey⟩, haccess⟩ := resolveTable_some hr
        rw [haccess m hm hkey]
        exact ⟨m.accessDatabase_ne, m.accessTable_ne⟩
    · exact Or.inl rfl

theorem mem_readTables {tree : Rose Node} : t ∈ readTables tree ↔ (.table t, false) ∈ tree.labels := by
  unfold readTables
  rw [List.mem_filterMap]
  constructor
  · rintro ⟨node, hnode, ht⟩
    split at ht
    · rw [Option.some.injEq] at ht
      rw [← ht]
      exact Rose.mem_levelOrder.mp hnode
    · cases ht
  · intro ht
    exact ⟨_, Rose.mem_levelOrder.mpr ht, rfl⟩

theorem namesIn_cteNames (tree : Rose Node) : NamesIn casefold (cteNames casefold tree) tree := by
  intro node hnode name hname
  exact List.mem_filterMap.mpr ⟨node, Rose.mem_levelOrder.mpr hnode, hname⟩

/-- A view stands at the key of a mapping's access view. -/
theorem tableKey_of_access {m : Mapping}
    (h : t = { db := m.accessDatabase, name := m.accessTable, aliasName := t.aliasName }) :
    tableKey casefold defaultDatabase t = m.accessKey casefold := by
  rw [h]
  unfold tableKey Mapping.accessKey
  dsimp only
  rw [if_pos m.accessDatabase_ne]

/-- What `_resolve_security_sources` returns reads no mapped source, unless a reference to one has
the name of a CTE somewhere in the statement without being hidden by it, or is replaced by a view
that is a mapped source. -/
theorem resolved_reads_iff {columnSql : String → String → String} {tree : Rose Node} {result : Result}
    (hok : resolveSecuritySources casefold defaultDatabase columnSql mappings expectedSources tree =
      .ok result) :
    (∀ t ∈ reads casefold [] result.tree,
      ¬ IsSource casefold mappings (tableKey casefold defaultDatabase t)) ↔
    ∀ t ∈ reads casefold [] tree,
      IsSource casefold mappings (tableKey casefold defaultDatabase t) →
        casefold t.name ∉ cteNames casefold tree ∧
          ∀ m ∈ mappings, m.sourceKey casefold = tableKey casefold defaultDatabase t →
            ¬ IsSource casefold mappings (m.accessKey casefold) := by
  unfold resolveSecuritySources at hok
  obtain ⟨turns, hturns, hok⟩ := bind_eq_ok.mp hok
  obtain ⟨_, -, hok⟩ := bind_eq_ok.mp hok
  have hresult := Except.ok.inj hok
  rw [← hresult]
  dsimp only
  rw [reads_onTables rewrite_keeps tree (List.nil_subset _) (namesIn_cteNames tree),
    List.forall_mem_map]
  -- every table that is read was gone through by the loop
  have hturn : ∀ t ∈ reads casefold [] tree, ∃ o, resolveTable casefold defaultDatabase mappings
      expectedSources (cteNames casefold tree) t = .ok o := by
    intro t ht
    have hmem := mem_readTables.mpr (mem_labels_of_reads tree ht).1
    obtain ⟨o, -, ho⟩ := (mapM_eq_ok hturns).1 t hmem
    exact ⟨o, ho⟩
  constructor
  · intro h t ht hsource
    have hrewritten := h t ht
    have hname := (mem_labels_of_reads tree ht).2
    have hvisible : casefold t.name ∉ cteNames casefold tree := by
      intro hhidden
      rw [rewrite_keeps.hidden t (Or.inr hhidden)] at hrewritten
      exact hrewritten hsource
    refine ⟨hvisible, fun m hm hkey => ?_⟩
    obtain ⟨o, ho⟩ := hturn t ht
    cases o with
    | none =>
        obtain hempty | hhidden | hno := resolveTable_none ho
        · exact absurd hempty hname
        · exact absurd hhidden hvisible
        · exact absurd hsource hno
    | some r =>
        obtain ⟨-, -, -, haccess⟩ := resolveTable_some ho
        have htable := haccess m hm hkey
        rw [rewrite_of_some ho, tableKey_of_access (m := m) (by rw [htable])] at hrewritten
        exact hrewritten
  · intro h t ht
    obtain ⟨o, ho⟩ := hturn t ht
    cases o with
    | none =>
        have hsame : rewrite casefold defaultDatabase mappings expectedSources
            (cteNames casefold tree) t = t := by
          unfold rewrite
          rw [ho]
        rw [hsame]
        intro hsource
        obtain hempty | hhidden | hno := resolveTable_none ho
        · exact (mem_labels_of_reads tree ht).2 hempty
        · exact (h t ht hsource).1 hhidden
        · exact hno hsource
    | some r =>
        obtain ⟨-, -, ⟨m, hm, hkey⟩, haccess⟩ := resolveTable_some ho
        have htable := haccess m hm hkey
        rw [rewrite_of_some ho, tableKey_of_access (m := m) (by rw [htable])]
        exact (h t ht ⟨m, hm, hkey⟩).2 m hm hkey

/-! ### A CTE with the name of a source -/

theorem access_ne : "access" ≠ "" := by decide

theorem users_ne : "users" ≠ "" := by decide

/-- `ods.users.phone` is encrypted; the view is `access.users`. -/
def usersMapping : Mapping where
  id := "m1"
  connectionId := some 1
  sourceDatabase := "ods"
  sourceTable := "users"
  sourceField := "phone"
  accessDatabase := "access"
  accessTable := "users"
  contractHash := "h1"
  state := "active"
  accessDatabase_ne := access_ne
  accessTable_ne := users_ne

/-- `SELECT column FROM table`. -/
def selectFrom (column : String) (ref : TableRef) : Rose Label :=
  .node .select [.node (.column "" column) [], .node .fromClause [.node (.table ref) []]]

/-- `WITH users AS (SELECT id FROM ods.orders) SELECT phone FROM ods.users`. -/
def shadowedQuery : Rose Label :=
  .node .select
    [.node (.withClause false)
        [.node (.cte "users") [selectFrom "id" { db := "ods", name := "orders" }]],
      .node (.column "" "phone") [],
      .node .fromClause [.node (.table { db := "ods", name := "users" }) []]]

/-- What the statement returned reads, as keys. -/
def returnedReads (result : Except String Result) : Option (List SourceKey) :=
  result.toOption.map (fun r => (reads id [] r.tree).map (tableKey id none))

theorem resolved_reads_source : returnedReads (resolveSecuritySql id none (fun _ name => name) [usersMapping] 1
      (.ok (.query shadowedQuery))) = some [("ods", "orders"), ("ods", "users")] ∧
    IsSource id [usersMapping] ("ods", "users") := by
  decide +kernel

theorem resolved_reads_view : returnedReads (resolveSecuritySql id none (fun _ name => name) [usersMapping] 1
      (.ok (.query (selectFrom "phone" { db := "ods", name := "users" })))) =
        some [("access", "users")] ∧
    ∀ t ∈ reads id [] ((Statement.query (selectFrom "phone" { db := "ods", name := "users" })).nodes.map
      (onTables (rewrite id none [usersMapping] none []))),
        ¬ IsSource id [usersMapping] (tableKey id none t) := by
  have hok : resolveSecuritySources id none (fun _ name => name) [usersMapping] none
      (Statement.query (selectFrom "phone" { db := "ods", name := "users" })).nodes = .ok
        { tree := (Statement.query (selectFrom "phone" { db := "ods", name := "users" })).nodes.map
            (onTables (rewrite id none [usersMapping] none []))
          mappings :=
            [{ table := { db := "access", name := "users" }, aliasName := "users",
               fields := ["phone"], mappingIds := ["m1"], source := "ods.users",
               access := "access.users" }] } := by
    rfl
  exact ⟨by decide +kernel, (resolved_reads_iff hok).mpr (by decide +kernel)⟩

/-! ### Statements over frozen sources -/

theorem resolveTable_active {r : Resolved} {m : Mapping}
    (h : resolveTable casefold defaultDatabase mappings expectedSources names t = .ok (some r)) (hm : m ∈ mappings)
    (hkey : m.sourceKey casefold = tableKey casefold defaultDatabase t) : m.state = "active" := by
  unfold resolveTable at h
  split_ifs at h with hhidden
  · cases h
  · dsimp only at h
    have hmem : m ∈ mappingsOf casefold mappings (tableKey casefold defaultDatabase t) :=
      List.mem_filter.mpr ⟨hm, decide_eq_true hkey⟩
    split at h
    · next hnil =>
        rw [hnil] at hmem
        cases hmem
    · next first rest hfound =>
        split_ifs at h with hinactive
        rw [hfound] at hmem
        by_contra hstate
        exact hinactive ⟨m, hmem, hstate⟩

theorem resolveTable_expected
    (h : resolveTable casefold defaultDatabase mappings expectedSources names t = .ok none) :
    t.name = "" ∨ casefold t.name ∈ names ∨ tableKey casefold defaultDatabase t ∉ expectedSources.getD [] := by
  unfold resolveTable at h
  split_ifs at h with hhidden
  · tauto
  · dsimp only at h
    split at h
    · split_ifs at h with hexpected
      exact Or.inr (Or.inr hexpected)
    · split_ifs at h
      split at h <;> cases h

theorem rewrite_of_none
    (h : resolveTable casefold defaultDatabase mappings expectedSources names t = .ok none) :
    rewrite casefold defaultDatabase mappings expectedSources names t = t := by
  unfold rewrite
  rw [h]

theorem cteNames_onTables (f : TableRef → TableRef) (tree : Rose Node) {name : String} :
    name ∈ cteNames casefold (tree.map (onTables f)) ↔ name ∈ cteNames casefold tree := by
  unfold cteNames
  simp only [List.mem_filterMap, Rose.mem_levelOrder, Rose.labels_map, List.mem_map, exists_exists_and_eq_and,
    cteName_onTables]

/-- Nothing but the written table is marked. -/
theorem mem_writeTargetTables {statement : Statement} (h : (.table t, true) ∈ statement.nodes.labels) :
    t ∈ writeTargetTables statement := by
  have hread : ∀ tree : Rose Label, (.table t, true) ∉ (tree.map (·, false)).labels := by
    intro tree hmem
    rw [Rose.labels_map] at hmem
    obtain ⟨_, -, hlabel⟩ := List.mem_map.mp hmem
    cases hlabel
  cases statement with
  | query tree => exact absurd h (hread tree)
  | write kind target source others =>
      obtain hlabel | ⟨child, hchild, hlabel⟩ := Rose.mem_labels_node.mp h
      · cases hlabel
      · obtain rfl | hchild := List.mem_cons.mp hchild
        · rw [Rose.labels_map] at hlabel
          obtain ⟨label, hmem, heq⟩ := List.mem_map.mp hlabel
          cases heq
          exact List.mem_filterMap.mpr ⟨_, Rose.mem_levelOrder.mpr hmem, rfl⟩
        · obtain ⟨tree, -, rfl⟩ := List.mem_map.mp hchild
          exact absurd hlabel (hread tree)

variable (casefold) in
/-- The table is one of `expected_sources`. -/
def Frozen (items : List ContextItem) (key : SourceKey) : Prop :=
  ∃ item ∈ items, item.sourceKey casefold = some key

/-- The table is the access view of a mapping that a frozen contract opens. -/
structure Opens (m : Mapping) (connectionId : ℕ) (fieldContracts : List ContextItem) (t : TableRef) : Prop where
  active : m.state = "active"
  connection : m.connectionId = some connectionId
  contract : ∃ item ∈ fieldContracts, item.contractHash = some m.contractHash
  view : (t.db, t.name) = m.access

/-- What `resolve_protected_etl_sql` returns writes no frozen source, and reads one only by a name
of a CTE or where it is the access view of a mapping with a frozen contract. -/
theorem protectedEtl_sources {columnSql : String → String → String} {rows : List Mapping} {connectionId : ℕ}
    {sourceAssets fieldContracts : List ContextItem} {parsed : Except String Statement} {result : Result}
    (hok : resolveProtectedEtlSql casefold defaultDatabase columnSql rows connectionId sourceAssets fieldContracts
      parsed = .ok result) :
    (∀ t, (.table t, true) ∈ result.tree.labels →
      ¬ Frozen casefold (sourceAssets ++ fieldContracts) (tableKey casefold defaultDatabase t)) ∧
    ∀ t ∈ reads casefold [] result.tree,
      Frozen casefold (sourceAssets ++ fieldContracts) (tableKey casefold defaultDatabase t) →
        casefold t.name ∈ cteNames casefold result.tree ∨
          ∃ m ∈ rows, Opens m connectionId fieldContracts t := by
  unfold resolveProtectedEtlSql at hok
  obtain ⟨statement, -, hok⟩ := bind_eq_ok.mp hok
  obtain ⟨_, -, hok⟩ := bind_eq_ok.mp hok
  obtain ⟨_, -, hok⟩ := bind_eq_ok.mp hok
  obtain ⟨_, hwrites, hok⟩ := bind_eq_ok.mp hok
  rw [raiseIf_eq_ok] at hwrites
  unfold resolveSecuritySources at hok
  obtain ⟨turns, hturns, hok⟩ := bind_eq_ok.mp hok
  obtain ⟨_, -, hok⟩ := bind_eq_ok.mp hok
  have hresult := Except.ok.inj hok
  rw [← hresult]
  dsimp only
  constructor
  · intro t ht hfrozen
    rw [Rose.labels_map] at ht
    obtain ⟨node, hnode, hsame⟩ := List.mem_map.mp ht
    unfold onTables at hsame
    split at hsame
    · cases hsame
    · rw [hsame] at hnode
      exact hwrites ⟨t, mem_writeTargetTables hnode, List.mem_filterMap.mpr hfrozen⟩
  · rw [reads_onTables rewrite_keeps _ (List.nil_subset _) (namesIn_cteNames _), List.forall_mem_map]
    intro t ht hfrozen
    obtain ⟨hlabel, hname⟩ := mem_labels_of_reads _ ht
    obtain ⟨o, -, ho⟩ := (mapM_eq_ok hturns).1 t (mem_readTables.mpr hlabel)
    rw [cteNames_onTables]
    cases o with
    | none =>
        rw [rewrite_of_none ho] at hfrozen ⊢
        obtain hempty | hhidden | hno := resolveTable_expected ho
        · exact absurd hempty hname
        · exact Or.inl hhidden
        · exact absurd (List.mem_filterMap.mpr hfrozen) hno
    | some r =>
        right
        obtain ⟨-, -, ⟨m, hm, hkey⟩, haccess⟩ := resolveTable_some ho
        obtain ⟨hloaded, hcontract⟩ := List.mem_filter.mp hm
        obtain ⟨hrow, hconnection⟩ := List.mem_filter.mp hloaded
        have hhash := (List.mem_filter.mp (of_decide_eq_true hcontract)).1
        refine ⟨m, hrow, resolveTable_active ho hm hkey, of_decide_eq_true hconnection,
          List.mem_filterMap.mp hhash, ?_⟩
        rw [rewrite_of_some ho, haccess m hm hkey]
        rfl

/-- `ods.users` is frozen. -/
def usersContract : ContextItem where
  database := some "ods"
  tableName := some "users"
  contractHash := some "h1"

/-- `INSERT INTO dwd.users SELECT phone FROM ods.users`. -/
def usersCopy : Statement :=
  .write .insert (.node (.table { db := "dwd", name := "users" }) [])
    (some (selectFrom "phone" { db := "ods", name := "users" })) []

theorem usersCopy_sources : ∃ result, resolveProtectedEtlSql id none (fun _ name => name) [usersMapping] 1 []
      [usersContract] (.ok usersCopy) = .ok result ∧
    (reads id [] result.tree).map (tableKey id none) = [("access", "users")] ∧
    ∀ t, (.table t, true) ∈ result.tree.labels → ¬ Frozen id [usersContract] (tableKey id none t) := by
  have hok : resolveProtectedEtlSql id none (fun _ name => name) [usersMapping] 1 [] [usersContract]
      (.ok usersCopy) = .ok _ := rfl
  exact ⟨_, hok, by decide +kernel, (protectedEtl_sources hok).1⟩

end RecoveryService.SecurityAccess
