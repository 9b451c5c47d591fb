import RecoveryService.SecurityAccess.Sql

/-! # Where the values of a statement come from

`walk` gives every query of a statement its output columns and every column that is written the
answer whether it stands for the value of an encrypted field of a resolved table.  An unqualified
name belongs to the innermost query one of whose sources has the column; `ORDER BY` looks at the
output columns first, `GROUP BY` and `HAVING` look at them last.  An output column carries an
encrypted value where its expression is such a column, possibly renamed, a star or a subquery; the
columns of a `UNION` carry what one of its sides carries.

`encrypted` are the encrypted fields of a table, `schema` its other columns. -/

namespace RecoveryService.SecurityAccess

open Trees

/-- Names of columns, and whether they carry an encrypted value. -/
abbrev Columns := List (String × Bool)

structure Source where
  aliasName : String
  columns : Columns

/-- Where a column is looked up besides the sources. -/
inductive Clause
  | plain | order | grouping

/-- The names in scope.  `frames` are the sources of the queries around, the innermost first, and
`outer` those that a subquery in `FROM` sees. -/
structure Env where
  ctes : List (String × Columns) := []
  frames : List (List Source) := []
  outer : List (List Source) := []
  outputs : Columns := []
  clause : Clause := .plain
  position : Bool := false

/-- A column where it is written. -/
structure Use where
  node : Node
  above : List Node
  carries : Bool

/-- What a node contributes to the node above it. -/
structure Walked where
  columns : Columns := []
  queries : List Columns := []
  sources : List Source := []
  ctes : List (String × Columns) := []
  uses : List Use := []

def Walked.append (v w : Walked) : Walked where
  columns := v.columns ++ w.columns
  queries := v.queries ++ w.queries
  sources := v.sources ++ w.sources
  ctes := v.ctes ++ w.ctes
  uses := v.uses ++ w.uses

/-! ### Looking a name up -/

def hasColumn (columns : Columns) (name : String) : Bool := columns.any (fun c => c.1 == name)

/-- Some column of the name carries an encrypted value. -/
def carriesNamed (columns : Columns) (name : String) : Bool :=
  columns.any (fun c => c.1 == name && c.2)

def carriesAny (columns : Columns) : Bool := columns.any (fun c => c.2)

/-- A name without a qualifier, in the innermost frame that has it. -/
def lookupName : List (List Source) → String → Option Bool
  | [], _ => none
  | frame :: frames, name =>
      if frame.any (fun s => hasColumn s.columns name) then
        some (frame.any (fun s => carriesNamed s.columns name))
      else lookupName frames name

/-- The sources of a qualifier, in the innermost frame that has it. -/
def sourcesNamed : List (List Source) → String → List Source
  | [], _ => []
  | frame :: frames, aliasName =>
      let found := frame.filter (fun s => s.aliasName == aliasName)
      if found.isEmpty then sourcesNamed frames aliasName else found

/-- The output columns of the query, for a name in one of its last clauses. -/
def Env.lookupOutput (env : Env) (name : String) : Option Bool :=
  if hasColumn env.outputs name then some (carriesNamed env.outputs name) else none

/-- The column stands for an encrypted value; both names are casefolded. -/
def Env.columnCarries (env : Env) (table name : String) : Bool :=
  if table ≠ "" then
    (sourcesNamed env.frames table).any (fun s => carriesNamed s.columns name)
  else
    match env.clause with
    | .plain => (lookupName env.frames name).getD false
    | .order => ((env.lookupOutput name).or (lookupName env.frames name)).getD false
    | .grouping => ((lookupName env.frames name).or (env.lookupOutput name)).getD false

/-- The columns of `*` and of `t.*`. -/
def Env.starColumns (env : Env) (table : String) : Columns :=
  if table ≠ "" then (sourcesNamed env.frames table).flatMap Source.columns
  else (env.frames.headD []).flatMap Source.columns

/-- `ORDER BY 1`. -/
def Env.positionCarries (env : Env) (position : ℕ) : Bool :=
  env.position && (env.outputs[position - 1]?).any (fun c => c.2)

/-- The columns of a `UNION`. -/
def unionColumns : List Columns → Columns
  | [] => []
  | first :: rest =>
      rest.foldl (fun columns side => columns.zipWith (fun c d => (c.1, c.2 || d.2)) side) first

variable (casefold : String → String) (encrypted schema : TableRef → List String)

/-- The columns of a table: those of a CTE in scope, or those of the physical table. -/
def Env.tableColumns (env : Env) (ref : TableRef) : Columns :=
  match if ref.db = "" then env.ctes.lookup (casefold ref.name) else none with
  | some columns => columns
  | none =>
      (encrypted ref).map (·, true) ++
        ((schema ref).filter (fun c => c ∉ encrypted ref)).map (·, false)

/-! ### Which children of a query are walked when -/

def Label.isWith : Label → Bool
  | withClause _ => true
  | _ => false

def Label.isFrom : Label → Bool
  | fromClause | joinClause => true
  | _ => false

def Label.isClause : Label → Bool
  | withClause _ | fromClause | joinClause | whereClause | havingClause | groupClause => true
  | orderClause => true
  | clause _ => true
  | _ => false

def Label.isQuery : Label → Bool
  | select | union => true
  | subquery _ => true
  | _ => false

/-- What a `FROM` or a `JOIN` joins does not see the other sources of the query. -/
def Label.isJoined : Label → Bool
  | table _ => true
  | subquery _ => true
  | _ => false

/-- Walk the children with these labels in one environment. -/
def picked (pick : Label → Bool) (env : Env) (label : Label) : Option Env :=
  if pick label then some env else none

/-! ### The walk -/

mutual
def walk (env : Env) (above : List Node) : Rose Node → Walked
  | .node (label, written) children =>
      let here := (label, written) :: above
      match label with
      | .table ref =>
          let inner := walkAll (fun _ => some env) here children
          if written then { uses := inner.uses }
          else
            { sources := [⟨casefold (aliasOrName ref), env.tableColumns casefold encrypted schema ref⟩]
              uses := inner.uses }
      | .column table name =>
          if name = "*" then { columns := env.starColumns (casefold table) }
          else
            let carries := env.columnCarries (casefold table) (casefold name)
            { columns := [(casefold name, carries)], uses := [⟨(label, written), above, carries⟩] }
      | .star => { columns := env.starColumns "" }
      | .literal position =>
          { columns := [("", false)]
            uses := position.toList.map
              (fun n => ⟨(label, written), above, env.positionCarries n⟩) }
      | .usingColumn name =>
          let carries := (lookupName env.frames (casefold name)).getD false
          { uses := [⟨(label, written), above, carries⟩] }
      | .aliased name =>
          let inner := walkAll (fun _ => some { env with position := false }) here children
          { columns := [(casefold name, carriesAny inner.columns)], uses := inner.uses }
      | .paren =>
          let inner := walkAll (fun _ => some { env with position := false }) here children
          { columns := [("", carriesAny inner.columns)], uses := inner.uses }
      | .subquery name =>
          let inner := walkAll (fun _ => some { env with position := false }) here children
          let columns := inner.queries.headD []
          { columns := [("", carriesAny columns)], queries := [columns]
            sources := [⟨casefold name, columns⟩], uses := inner.uses }
      | .cte name =>
          let inner := walkAll (fun _ => some env) here children
          { ctes := [(casefold name, inner.queries.headD [])], uses := inner.uses }
      | .withClause recursive => walkCtes recursive env here children
      | .select =>
          let start : Env := { ctes := env.ctes, frames := env.frames, outer := env.frames }
          let withs := walkAll (picked Label.isWith start) here children
          let from_ : Env := { start with ctes := withs.ctes ++ env.ctes }
          let sources := (walkAll (picked Label.isFrom from_) here children).sources
          let body : Env := { from_ with frames := sources :: env.frames }
          let projections := walkAll (picked (fun l => !l.isClause) body) here children
          let last : Env := { body with outputs := projections.columns }
          let clauses := walkAll (picked (fun l => l.isClause && !l.isWith) last) here children
          { queries := [projections.columns]
            uses := withs.uses ++ projections.uses ++ clauses.uses }
      | .union =>
          let start : Env := { ctes := env.ctes, frames := env.frames, outer := env.frames }
          let withs := walkAll (picked Label.isWith start) here children
          let body : Env := { start with ctes := withs.ctes ++ env.ctes }
          let sides := walkAll (picked Label.isQuery body) here children
          let columns := unionColumns sides.queries
          let last : Env := { body with outputs := columns }
          let clauses := walkAll (picked (fun l => !l.isQuery && !l.isWith) last) here children
          { queries := [columns], uses := withs.uses ++ sides.uses ++ clauses.uses }
      | .insert | .create =>
          let withs := walkAll (picked Label.isWith env) here children
          let body : Env := { env with ctes := withs.ctes ++ env.ctes }
          let others := walkAll (picked (fun l => !l.isWith) body) here children
          { uses := withs.uses ++ others.uses }
      | .fromClause | .joinClause =>
          let inner := walkAll
            (fun l => some (if l.isJoined then { env with frames := env.outer } else env))
            here children
          { sources := inner.sources, uses := inner.uses }
      | .orderClause =>
          let inner := walkAll (fun _ => some { env with clause := .order, position := true })
            here children
          { uses := inner.uses }
      | .groupClause =>
          let inner := walkAll (fun _ => some { env with clause := .grouping, position := true })
            here children
          { uses := inner.uses }
      | .havingClause =>
          let inner := walkAll (fun _ => some { env with clause := .grouping }) here children
          { uses := inner.uses }
      | .ordered => { uses := (walkAll (fun _ => some env) here children).uses }
      | .whereClause | .clause _ => { uses := (walkAll (fun _ => some env) here children).uses }
      | .func _ | .other _ =>
          let inner := walkAll (fun _ => some { env with position := false }) here children
          { columns := [("", false)], uses := inner.uses }
def walkAll (enter : Label → Option Env) (above : List Node) : List (Rose Node) → Walked
  | [] => {}
  | child :: children =>
      let rest := walkAll enter above children
      match enter child.label.1 with
      | some env => (walk env above child).append rest
      | none => rest
def walkCtes (recursive : Bool) (env : Env) (above : List Node) : List (Rose Node) → Walked
  | [] => {}
  | cte :: ctes =>
      let first := walk env above cte
      -- a recursive CTE sees its own columns; a column may need a turn to carry a value
      let turns := if recursive then (first.ctes.map (fun c => c.2.length)).sum + 1 else 0
      let final := (fun w : Walked =>
        walk { env with ctes := w.ctes ++ env.ctes } above cte)^[turns] first
      final.append (walkCtes recursive { env with ctes := final.ctes ++ env.ctes } above ctes)
end

end RecoveryService.SecurityAccess
