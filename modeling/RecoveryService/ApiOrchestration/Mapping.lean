import RecoveryService.ApiOrchestration.Graph
import RecoveryService.ApiOrchestration.PathTokens
import RecoveryService.Lib.Numerals

/-! # Data mappings

A mapping node renders a JSON template over the context of a run: a text that is one path token
becomes the value at the path, the tokens inside other texts become texts.  The template is
validated with the graph, and three functions go through it: the one that collects its paths,
the one that renders it and the one that validates it.  They agree (`mapping_agrees_iff`) except
where a path comes to a list with an index that `int` refuses to read. -/

namespace RecoveryService.ApiOrchestration

open Checks

/-! ### Looking a path up -/

/-- The digits that `int` reads at most. -/
def maxStrDigits : ℕ := 4300

/-- `part.isdigit()`; the parts of a path are ASCII. -/
def isIndex (part : List Char) : Bool := part ≠ [] && part.all Char.isDigit

/-- `int(part)` for digits. -/
def indexOf (part : List Char) : ℕ := part.foldl (fun n c => 10 * n + (c.toNat - '0'.toNat)) 0

/-- The loop of `_lookup_present`; `none` where the path is not there. -/
def lookupParts : Json → List (List Char) → Except String (Option Json)
  | current, [] => .ok (some current)
  | .obj entries, part :: parts =>
      match entries.lookup (String.ofList part) with
      | none => .ok none
      | some value => lookupParts value parts
  | .arr items, part :: parts =>
      if isIndex part then
        if maxStrDigits < part.length then
          .error "Exceeds the limit (4300 digits) for integer string conversion"
        else
          match items[indexOf part]? with
          | none => .ok none
          | some value => lookupParts value parts
      else .ok none
  | _, _ :: _ => .ok none

/-- `_lookup_present`. -/
def lookupPresent (context : Json) (path : String) : Except String (Option Json) :=
  lookupParts context (pathParts path)

/-! ### Rendering -/

mutual
/-- `json.dumps(value, ensure_ascii=False)`. -/
def dumps : Json → List Char
  | .arr [] => ['[', ']']
  | .arr (v :: items) => '[' :: (dumps v ++ dumpsItems items)
  | .obj [] => [Json.openBrace, Json.closeBrace]
  | .obj ((k, v) :: entries) =>
      Json.openBrace :: (Json.quoted k ++ ':' :: ' ' :: (dumps v ++ dumpsEntries entries))
  | v => v.text

def dumpsItems : List Json → List Char
  | [] => [']']
  | v :: items => ',' :: ' ' :: (dumps v ++ dumpsItems items)

def dumpsEntries : List (String × Json) → List Char
  | [] => [Json.closeBrace]
  | (k, v) :: entries => ',' :: ' ' :: (Json.quoted k ++ ':' :: ' ' :: (dumps v ++ dumpsEntries entries))
end

/-- The text of a value inside a text. -/
def embedded : Json → List Char
  | .null => []
  | .str s => s.toList
  | v => dumps v

def missingPath (path : String) : String := "数据映射路径不存在：" ++ path

variable (context : Json) (policy : String)

/-- What stands in the place of a piece. -/
def renderPiece : Piece → Except String (List Char)
  | .char c => .ok [c]
  | .token chars => do
      match ← lookupPresent context (String.ofList chars) with
      | some result => .ok (embedded result)
      | none => if policy = "null" then .ok [] else .error (missingPath (String.ofList chars))

def renderText (s : String) : Except String Json :=
  match fullToken s with
  | some path => do
      match ← lookupPresent context path with
      | some result => .ok result
      | none => if policy = "null" then .ok .null else .error (missingPath path)
  | none => do
      let texts ← (scan s).mapM (renderPiece context policy)
      return .str (String.ofList texts.flatten)

mutual
/-- `_render_mapping` under an accepted policy. -/
def render : Json → Except String Json
  | .obj entries => do return .obj (← renderEntries entries)
  | .arr items => do return .arr (← renderItems items)
  | .str s => renderText context policy s
  | v => .ok v

def renderItems : List Json → Except String (List Json)
  | [] => .ok []
  | v :: items => do
      let result ← render v
      let results ← renderItems items
      return result :: results

def renderEntries : List (String × Json) → Except String (List (String × Json))
  | [] => .ok []
  | (k, v) :: entries => do
      let result ← render v
      let results ← renderEntries entries
      return (k, result) :: results
end

/-- `_render_mapping`; every call makes the same check of the policy. -/
def renderMapping (template : Json) : Except String Json := do
  raiseIf (policy ≠ "error" ∧ policy ≠ "null") "数据映射节点的缺失字段策略必须是 error 或 null。"
  render context policy template

/-! ### Collecting and validating -/

mutual
/-- `_mapping_references`. -/
def mappingReferences (validate : Bool) : Json → Except String (List String)
  | .obj entries => entriesReferences validate entries
  | .arr items => itemsReferences validate items
  | .str s => do
      raiseIf (validate = true ∧ ([Json.openBrace, Json.openBrace] <:+: remainder s ∨
          [Json.closeBrace, Json.closeBrace] <:+: remainder s))
        ("数据映射模板包含不受支持的表达式：" ++ s)
      return tokens s
  | _ => .ok []

def itemsReferences (validate : Bool) : List Json → Except String (List String)
  | [] => .ok []
  | v :: items => do
      let references ← mappingReferences validate v
      let rest ← itemsReferences validate items
      return references ++ rest

def entriesReferences (validate : Bool) : List (String × Json) → Except String (List String)
  | [] => .ok []
  | (_, v) :: entries => do
      let references ← mappingReferences validate v
      let rest ← entriesReferences validate entries
      return references ++ rest
end

/-- `_MAPPING_CONTEXT_ROOTS`. -/
def mappingContextRoots : List (List Char) :=
  ["input".toList, "nodes".toList, "variables".toList, "state".toList, "system".toList]

/-- `node.get("config") or {}`. -/
def Node.settings (node : Node) : Json := if node.config.truthy then node.config else .obj []

/-- `config.get("missing_policy", "error")`; `none` for a value that is no text. -/
def Node.missingPolicy (node : Node) : Option String :=
  match node.settings with
  | .obj entries =>
      match entries.lookup "missing_policy" with
      | none => some "error"
      | some (.str policy) => some policy
      | some _ => none
  | _ => some "error"

/-- `node.get("name") or node.get("id") or "mapping"`. -/
def Node.label (node : Node) : String :=
  Text.orElse (node.name.getD "") (Text.orElse node.id "mapping")

/-- `isinstance(value, (dict, list))`. -/
def isContainer : Json → Bool
  | .obj _ | .arr _ => true
  | _ => false

/-- `_validate_mapping_config`. -/
def validateMappingConfig (node : Node) : Except String Unit := do
  let template := node.settings.get "template"
  let label := node.label
  raiseIf (¬ isContainer template) ("数据映射节点 " ++ label ++ " 的输出模板必须是 JSON 对象或数组。")
  raiseIf (node.missingPolicy ≠ some "error" ∧ node.missingPolicy ≠ some "null")
    ("数据映射节点 " ++ label ++ " 的缺失字段策略必须是 error 或 null。")
  let references ← mappingReferences true template
  references.forM fun expression =>
    raiseIf (pathRoot expression ∉ mappingContextRoots)
      ("数据映射节点 " ++ label ++ " 使用了不支持的上下文路径：" ++ expression)

end RecoveryService.ApiOrchestration
