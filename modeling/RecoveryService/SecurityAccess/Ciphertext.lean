import RecoveryService.SecurityAccess.Provenance

/-! # Ciphertext in filters, joins, orders, groups and functions

An accepted statement was checked column by column: no column inside one of these has the name of
an encrypted field under its alias.  What the check cannot see is a value under another name: it
asks for the alias of a mapped table, or takes the fields of the only one there is.  An accepted
statement therefore uses no encrypted value inside one of them exactly when every such use is
written as a column that the check would find (`accepted_uses_iff`). -/

namespace RecoveryService.SecurityAccess

open Checks Trees

variable {casefold : String → String} {encrypted schema : TableRef → List String}

@[simp] theorem append_uses (v w : Walked) : (v.append w).uses = v.uses ++ w.uses := rfl

/-- The uses of a node are its own or those of its children. -/
theorem walk_uses (env : Env) (above : List Node) (node : Node) (children : List (Rose Node))
    {u : Use} (hu : u ∈ (walk casefold encrypted schema env above (.node node children)).uses) :
    (u.node = node ∧ u.above = above) ∨
      (∃ enter, u ∈ (walkAll casefold encrypted schema enter (node :: above) children).uses) ∨
        ∃ recursive env', u ∈ (walkCtes casefold encrypted schema recursive env' (node :: above)
          children).uses := by
  obtain ⟨label, written⟩ := node
  unfold walk at hu
  cases label with
  | column table name =>
      dsimp only at hu
      split_ifs at hu
      · cases hu
      · rw [List.mem_singleton.mp hu]
        exact Or.inl ⟨rfl, rfl⟩
  | star => cases hu
  | literal position =>
      obtain ⟨n, -, rfl⟩ := List.mem_map.mp hu
      exact Or.inl ⟨rfl, rfl⟩
  | usingColumn name =>
      rw [List.mem_singleton.mp hu]
      exact Or.inl ⟨rfl, rfl⟩
  | withClause recursive => exact Or.inr (Or.inr ⟨_, _, hu⟩)
  | select | union =>
      obtain hu | hu := List.mem_append.mp hu
      · obtain hu | hu := List.mem_append.mp hu
        · exact Or.inr (Or.inl ⟨_, hu⟩)
        · exact Or.inr (Or.inl ⟨_, hu⟩)
      · exact Or.inr (Or.inl ⟨_, hu⟩)
  | insert | create =>
      obtain hu | hu := List.mem_append.mp hu
      · exact Or.inr (Or.inl ⟨_, hu⟩)
      · exact Or.inr (Or.inl ⟨_, hu⟩)
  | table ref =>
      dsimp only at hu
      split_ifs at hu <;> exact Or.inr (Or.inl ⟨_, hu⟩)
  | _ => exact Or.inr (Or.inl ⟨_, hu⟩)

theorem walkAll_uses (enter : Label → Option Env) (above : List Node) (children : List (Rose Node))
    {u : Use} (hu : u ∈ (walkAll casefold encrypted schema enter above children).uses) :
    ∃ child ∈ children, ∃ env, u ∈ (walk casefold encrypted schema env above child).uses := by
  induction children with
  | nil => cases hu
  | cons child children ih =>
      rw [List.exists_mem_cons_iff]
      unfold walkAll at hu
      dsimp only at hu
      cases henter : enter child.label.1 with
      | none =>
          rw [henter] at hu
          exact Or.inr (ih hu)
      | some env =>
          rw [henter] at hu
          obtain hu | hu := List.mem_append.mp hu
          · exact Or.inl ⟨env, hu⟩
          · exact Or.inr (ih hu)

theorem walkCtes_uses (recursive : Bool) (env : Env) (above : List Node) (ctes : List (Rose Node))
    {u : Use} (hu : u ∈ (walkCtes casefold encrypted schema recursive env above ctes).uses) :
    ∃ cte ∈ ctes, ∃ env, u ∈ (walk casefold encrypted schema env above cte).uses := by
  induction ctes generalizing env with
  | nil => cases hu
  | cons cte ctes ih =>
      rw [List.exists_mem_cons_iff]
      unfold walkCtes at hu
      dsimp only at hu
      obtain hu | hu := List.mem_append.mp hu
      · left
        generalize (if recursive then _ else 0) = turns at hu
        cases turns with
        | zero => exact ⟨env, hu⟩
        | succ n =>
            rw [Function.iterate_succ_apply'] at hu
            exact ⟨_, hu⟩
      · exact Or.inr (ih _ hu)

/-- Every use stands where it says. -/
theorem uses_occur (env : Env) (above : List Node) (tree : Rose Node) {u : Use}
    (hu : u ∈ (walk casefold encrypted schema env above tree).uses) :
    (u.node, u.above) ∈ (tree.withAncestors above).labels := by
  induction tree using Rose.induction generalizing env above with
  | node node children ih =>
      rw [Rose.withAncestors_node, Rose.mem_labels_node]
      have hbelow : (∃ child ∈ children, ∃ env,
          u ∈ (walk casefold encrypted schema env (node :: above) child).uses) →
            ∃ c ∈ children.map (Rose.withAncestors (node :: above)), (u.node, u.above) ∈ c.labels := by
        rintro ⟨child, hchild, env', hu'⟩
        exact ⟨_, List.mem_map_of_mem hchild, ih child hchild env' _ hu'⟩
      obtain ⟨hnode, habove⟩ | ⟨enter, hu⟩ | ⟨recursive, env', hu⟩ := walk_uses env above node children hu
      · left
        rw [hnode, habove]
      · exact Or.inr (hbelow (walkAll_uses enter _ children hu))
      · exact Or.inr (hbelow (walkCtes_uses recursive env' _ children hu))

/-! ### The uses of a statement -/

section Statement

variable (casefold) (defaultDatabase : Option String) (mappings : List Mapping)
  (expectedSources : Option (List SourceKey)) (schema) (tree : Rose Node)

/-- What the loop resolves a table to. -/
def resolvedAs (ref : TableRef) : Option Resolved :=
  (resolveTable casefold defaultDatabase mappings expectedSources (cteNames casefold tree)
    ref).toOption.join

/-- The encrypted fields of a resolved table. -/
def encryptedFields (ref : TableRef) : List String :=
  match resolvedAs casefold defaultDatabase mappings expectedSources tree ref with
  | some resolved => resolved.fields
  | none => []

/-- The columns the statement is written with. -/
def statementUses : List Use :=
  (walk casefold (encryptedFields casefold defaultDatabase mappings expectedSources tree) schema
    {} [] tree).uses

/-- The encrypted fields by the alias of their table, the last table of an alias in the order of
the loop. -/
def aliasFields : List (String × List String) :=
  secureAliases ((readTables tree).filterMap
    (resolvedAs casefold defaultDatabase mappings expectedSources tree))

/-- The use is a column with the name of an encrypted field under its alias, or under any alias
where there is only one. -/
def WrittenPlainly (u : Use) : Prop :=
  match u.node.1 with
  | .column table name =>
      NamesCiphertext casefold
        (aliasFields casefold defaultDatabase mappings expectedSources tree) table name
  | _ => False

instance (u : Use) : Decidable (WrittenPlainly casefold defaultDatabase mappings expectedSources tree u) := by
  unfold WrittenPlainly
  split <;> infer_instance

end Statement

variable {defaultDatabase : Option String} {mappings : List Mapping}
  {expectedSources : Option (List SourceKey)} {columnSql : String → String → String}

/-- What the check lets pass. -/
theorem rejectUnsafe_ok {tree : Rose Node} {aliases : List (String × List String)}
    (h : rejectUnsafeCiphertextOperations casefold columnSql tree aliases = .ok ())
    {occurrence : Node × List Node} (hmem : occurrence ∈ (tree.withAncestors []).labels)
    {table name : String} (hcolumn : occurrence.1.1 = .column table name)
    (hinside : Inside occurrence.2) : ¬ NamesCiphertext casefold aliases table name := by
  unfold rejectUnsafeCiphertextOperations at h
  split_ifs at h with hempty
  · rw [hempty]
    exact List.not_mem_nil
  · have hcheck := forM_eq_ok h occurrence (Rose.mem_levelOrder.mpr hmem)
    unfold rejectColumn at hcheck
    rw [hcolumn] at hcheck
    dsimp only at hcheck
    rw [raiseIf_eq_ok] at hcheck
    exact fun hnames => hcheck ⟨hnames, hinside⟩

theorem inside_onTables (f : TableRef → TableRef) (above : List Node) :
    Inside (above.map (onTables f)) ↔ Inside above := by
  have hsame : ∀ node : Node,
      (onTables f node).1.unsafeForCiphertext = node.1.unsafeForCiphertext := by
    intro node
    unfold onTables
    split <;> rfl
  constructor
  · rintro ⟨_, hnode, hunsafe⟩
    obtain ⟨node, hmem, rfl⟩ := List.mem_map.mp hnode
    rw [hsame] at hunsafe
    exact ⟨node, hmem, hunsafe⟩
  · rintro ⟨node, hmem, hunsafe⟩
    refine ⟨_, List.mem_map_of_mem hmem, ?_⟩
    rw [hsame]
    exact hunsafe

/-- An accepted statement uses no encrypted value in a filter, a join, an order, a group or a
function exactly when every such use is a column the check looks up under the name of its field. -/
theorem accepted_uses_iff {tree : Rose Node} {result : Result}
    (hok : resolveSecuritySources casefold defaultDatabase columnSql mappings expectedSources tree =
      .ok result) :
    (∀ u ∈ statementUses casefold schema defaultDatabase mappings expectedSources tree,
      u.carries = true → ¬ Inside u.above) ↔
    ∀ u ∈ statementUses casefold schema defaultDatabase mappings expectedSources tree,
      u.carries = true → Inside u.above →
        WrittenPlainly casefold defaultDatabase mappings expectedSources tree u := by
  unfold resolveSecuritySources at hok
  obtain ⟨turns, hturns, hok⟩ := bind_eq_ok.mp hok
  obtain ⟨_, hreject, -⟩ := bind_eq_ok.mp hok
  constructor
  · intro hnone u hu hcarries hinside
    exact absurd hinside (hnone u hu hcarries)
  · intro hplain u hu hcarries hinside
    have hwritten := hplain u hu hcarries hinside
    unfold WrittenPlainly at hwritten
    split at hwritten
    · next table name hcolumn =>
        have hoccur := uses_occur _ _ tree hu
        generalize rewrite casefold defaultDatabase mappings expectedSources
          (cteNames casefold tree) = f at hreject
        have hmapped := Rose.mem_labels_map
          (fun p : Node × List Node => (onTables f p.1, p.2.map (onTables f))) _ hoccur
        rw [← Rose.withAncestors_map] at hmapped
        have hkept : (onTables f u.node).1 = .column table name := by
          unfold onTables
          split
          · next ref heq =>
              rw [heq] at hcolumn
              cases hcolumn
          · exact hcolumn
        refine rejectUnsafe_ok hreject hmapped hkept ((inside_onTables f u.above).mpr hinside) ?_
        rw [← filterMap_of_mapM hturns]
        exact hwritten
    · exact hwritten

/-! ### Values the check does not see -/

/-- A field of `ods` and the view of its table in `access`. -/
def odsMapping (id table field : String) (h : table ≠ "") : Mapping where
  id := id
  connectionId := some 1
  sourceDatabase := "ods"
  sourceTable := table
  sourceField := field
  accessDatabase := "access"
  accessTable := table
  contractHash := "h"
  state := "active"
  accessDatabase_ne := by decide
  accessTable_ne := h

/-- `ods.users.phone` and `ods.accounts.card`. -/
def odsMappings : List Mapping :=
  [odsMapping "m1" "users" "phone" (by decide), odsMapping "m2" "accounts" "card" (by decide)]

def columnOf (table name : String) : Rose Label := .node (.column table name) []

/-- `WHERE column = 'text'`. -/
def whereEquals (column : Rose Label) : Rose Label :=
  .node .whereClause [.node (.other "eq") [column, .node (.literal none) []]]

def fromTable (name : String) : Rose Label :=
  .node .fromClause [.node (.table { db := "ods", name := name }) []]

/-- `SELECT id FROM ods.users, ods.accounts WHERE phone = '1'`. -/
def joinedQuery : Rose Label :=
  .node .select
    [columnOf "users" "id", fromTable "users",
      .node .joinClause [.node (.table { db := "ods", name := "accounts" }) []],
      whereEquals (columnOf "" "phone")]

/-- `SELECT phone AS p FROM ods.users`. -/
def renamingQuery : Rose Label :=
  .node .select [.node (.aliased "p") [columnOf "" "phone"], fromTable "users"]

/-- `SELECT p FROM (SELECT phone AS p FROM ods.users) AS t WHERE t.p = '1'`. -/
def derivedQuery : Rose Label :=
  .node .select
    [columnOf "" "p", .node .fromClause [.node (.subquery "t") [renamingQuery]],
      whereEquals (columnOf "t" "p")]

/-- `WITH t AS (SELECT phone AS p FROM ods.users) SELECT p FROM t ORDER BY p`. -/
def cteQuery : Rose Label :=
  .node .select
    [.node (.withClause false) [.node (.cte "t") [renamingQuery]], columnOf "" "p",
      .node .fromClause [.node (.table { name := "t" }) []],
      .node .orderClause [.node .ordered [columnOf "" "p"]]]

/-- The statement is accepted and uses an encrypted value where it must not be used. -/
def AcceptedUse (tree : Rose Label) : Prop :=
  (resolveSecuritySql id none (fun _ name => name) odsMappings 1
    (.ok (.query tree))).toOption.isSome = true ∧
  ∃ u ∈ statementUses id (fun _ => ["id"]) none odsMappings none (Statement.query tree).nodes,
    u.carries = true ∧ Inside u.above

instance (tree : Rose Label) : Decidable (AcceptedUse tree) := by
  unfold AcceptedUse
  infer_instance

theorem accepted_uses : AcceptedUse joinedQuery ∧ AcceptedUse derivedQuery ∧ AcceptedUse cteQuery := by
  decide +kernel

/-- `SELECT phone FROM ods.users WHERE id = '1'`. -/
def plainQuery : Rose Node :=
  (Statement.query (.node .select
    [columnOf "" "phone", fromTable "users", whereEquals (columnOf "" "id")])).nodes

theorem plainQuery_uses : (resolveSecuritySources id none (fun _ name => name) odsMappings none
      plainQuery).toOption.isSome = true ∧
    ∀ u ∈ statementUses id (fun _ => ["id"]) none odsMappings none plainQuery,
      u.carries = true → ¬ Inside u.above := by
  have hok : resolveSecuritySources id none (fun _ name => name) odsMappings none plainQuery = .ok
      { tree := plainQuery.map (onTables (rewrite id none odsMappings none []))
        mappings :=
          [{ table := { db := "access", name := "users" }, aliasName := "users",
             fields := ["phone"], mappingIds := ["m1"], source := "ods.users",
             access := "access.users" }] } := by
    rfl
  exact ⟨by rw [hok]; rfl, (accepted_uses_iff hok).mpr (by decide +kernel)⟩

end RecoveryService.SecurityAccess
