import RecoveryService.Lib.Dict
import RecoveryService.Lib.Text

/-! # Values of a data-sync configuration

A data-sync task is a JSON dictionary written by a page, a template or an older version of the
program, so every value is cleaned where it is read.  The cleaners below raise the `ValueError`s of
the source.  Python's own `str`, `int`, `bool` of JSON values and `str.lower` are the fields of
`Python`. -/

namespace DataSync

/-! ### Exceptions -/

/-- The classes of exceptions the retry logic tells apart.  `connection` stands for
`ConnectionError`, `TimeoutError`, `OSError` and `URLError`; `exit` for what `except Exception`
does not catch. -/
inductive ExceptionKind where
  | valueError
  | infrastructureUnavailable
  | interfaceError
  | operationalError
  | connection
  | other
  | exit
deriving DecidableEq

/-- `args[0]` of an exception when it is a number or a text. -/
inductive Arg where
  | int (n : ℤ)
  | str (s : String)
deriving DecidableEq

structure ExceptionInfo where
  kind : ExceptionKind
  name : String := "Exception"
  arg : Option Arg := none
  text : String := ""
deriving DecidableEq

/-- An exception and the ones behind it (`orig`, `__cause__` or `__context__`). -/
structure Raised where
  info : ExceptionInfo
  causes : List ExceptionInfo := []
deriving DecidableEq

def Raised.chain (exc : Raised) : List ExceptionInfo := exc.info :: exc.causes

def valueError (text : String) : Raised :=
  { info := { kind := .valueError, name := "ValueError", arg := some (.str text), text := text } }

/-- `_exception_code`: the first `args[0]` of the chain. -/
def exceptionCode : List ExceptionInfo → Option Arg
  | [] => none
  | info :: rest => info.arg.orElse fun _ => exceptionCode rest

def retryableConnectionErrorCodes : List ℤ := [0, 2006, 2013, 2014, 2055]

def retryableMarkers : List String :=
  ["lost connection", "server has gone away", "connection reset", "connection refused",
    "broken pipe", "socket is closed", "timed out"]

/-- Python's conversions of JSON values and strings. -/
structure Python where
  str : Json → String
  int : Json → Except Raised ℤ
  lower : String → String
  str_str : ∀ s, str (.str s) = s
  str_ne : ∀ v, v.truthy = true → str v ≠ ""

/-- The text of a number is not empty. -/
theorem toString_int_ne (n : ℤ) : toString n ≠ "" := by
  cases n with
  | ofNat n => exact Nat.repr_ne_empty
  | negSucc n =>
      intro h
      have hlen : ("-" ++ Nat.repr (n + 1)).length = 0 := congrArg String.length h
      rw [String.length_append] at hlen
      exact absurd hlen (by simp)

/-- The conversions of `None`, booleans, numbers and ASCII texts. -/
def Python.scalars : Python where
  str
    | .null => "None"
    | .bool b => if b then "True" else "False"
    | .num n => toString n
    | .float text => if text = "" then "nan" else text
    | .str s => s
    | .arr _ => "[]"
    | .obj _ => "\x7b\x7d"
  int
    | .num n => .ok n
    | .bool b => .ok (if b then 1 else 0)
    | _ => .error (valueError "invalid literal for int()")
  lower := Text.lowerAscii
  str_str _ := rfl
  str_ne v hv := by
    cases v with
    | null => decide
    | bool b => cases b <;> decide
    | num n => exact toString_int_ne n
    | float text =>
        simp only
        split
        · decide
        · assumption
    | str s => simpa [Json.truthy] using hv
    | arr _ => exact (by decide : "[]" ≠ "")
    | obj _ => exact (by decide : "\x7b\x7d" ≠ "")

section cleaners

variable (py : Python)

/-- One exception of the chain `current :: rest` looked at by `_is_retryable_connection_error`. -/
def retryableLink (current : ExceptionInfo) (rest : List ExceptionInfo) : Bool :=
  current.kind == .infrastructureUnavailable ||
    ((current.kind == .interfaceError || current.kind == .operationalError) &&
      (match exceptionCode (current :: rest) with
        | some (.int n) => retryableConnectionErrorCodes.contains n
        | _ => false)) ||
    current.kind == .connection ||
    retryableMarkers.any (fun marker =>
      decide (marker.toList <:+: (py.lower current.text).toList))

def isRetryableChain : List ExceptionInfo → Bool
  | [] => false
  | current :: rest => retryableLink py current rest || isRetryableChain rest

/-- `_is_retryable_connection_error`. -/
def isRetryableConnectionError (exc : Raised) : Bool := isRetryableChain py exc.chain

/-- `str(value or default)`. -/
def strOr (value : Json) (default : String) : String :=
  if value.truthy then py.str value else default

theorem strOr_str (s : String) : strOr py (.str s) "" = s := by
  unfold strOr Json.truthy
  by_cases hs : s = ""
  · rw [hs]
    rfl
  · rw [if_pos (bne_iff_ne.mpr hs), py.str_str]

/-- `value or other`. -/
def orElse (value other : Json) : Json := if value.truthy then value else other

/-! ### Cleaners -/

/-- A character of `_IDENT_RE`. -/
def identChar (c : Char) : Bool :=
  (0x41 ≤ c.toNat && c.toNat ≤ 0x5A) || (0x61 ≤ c.toNat && c.toNat ≤ 0x7A) ||
    (0x30 ≤ c.toNat && c.toNat ≤ 0x39) || c == '_' || (0x4E00 ≤ c.toNat && c.toNat ≤ 0x9FFF)

/-- A character of `_CONTROL_CHAR_RE`. -/
def controlChar (c : Char) : Bool := c.toNat ≤ 0x1F || c.toNat == 0x7F

def cleanIdentifier (value : Json) (label : String) : Except Raised String :=
  let clean := Text.strip (strOr py value "")
  if clean = "" ∨ ¬ clean.toList.all identChar then
    .error (valueError (label ++ "只能包含中文、字母、数字和下划线。"))
  else .ok clean

def cleanExistingIdentifier (value : Json) (label : String) : Except Raised String :=
  let clean := Text.strip (strOr py value "")
  if clean = "" then .error (valueError (label ++ "不能为空。"))
  else if clean.toList.any controlChar then
    .error (valueError (label ++ "不能包含换行或控制字符。"))
  else .ok clean

/-- The engine of a connection profile. -/
inductive Engine where
  | doris
  | mysql
  | oracle
  | other (name : String)
deriving DecidableEq

def Engine.name : Engine → String
  | .doris => "doris"
  | .mysql => "mysql"
  | .oracle => "oracle"
  | .other name => name

def ensureSupportedSourceProfile (engine : Engine) : Except Raised Unit :=
  match engine with
  | .other _ => .error (valueError "数据同步源连接目前只支持 Doris、MySQL 或 Oracle。")
  | _ => .ok ()

def ensureDorisProfile (engine : Engine) : Except Raised Unit :=
  if engine = .doris then .ok () else .error (valueError "请选择 Doris 类型的数据连接。")

/-- The catalog of a source that is read directly. -/
def fixedCatalog (value : Json) (name error : String) : Except Raised String :=
  let clean := Text.orElse (Text.strip (strOr py value name)) name
  if clean = name then .ok clean else .error (valueError error)

def cleanSourceCatalog (engine : Engine) (value : Json) : Except Raised String :=
  match engine with
  | .mysql => fixedCatalog py value "local_mysql" "MySQL 源连接的 Catalog 固定为 local_mysql。"
  | .oracle => fixedCatalog py value "local_oracle" "Oracle 直连源的 Catalog 固定为 local_oracle。"
  | _ => cleanIdentifier py value "源 Catalog"

/-- A text that has to be one of a few. -/
def cleanChoice (clean : String) (choices : List String) (error : String) : Except Raised String :=
  if clean ∈ choices then .ok clean else .error (valueError error)

def cleanWriteMode (value : Json) : Except Raised String :=
  let clean := Text.strip (strOr py value "append")
  cleanChoice (if clean = "full_replace" then "truncate_insert" else clean)
    ["append", "truncate_insert"] "数据同步写入策略只支持 append 或 truncate_insert。"

def cleanSyncMethod (value : Json) : Except Raised String :=
  cleanChoice (Text.strip (strOr py value "auto")) ["auto", "insert_select", "stream_load"]
    "data sync method must be auto, insert_select, or stream_load."

def cleanSchemaPolicy (value : Json) : Except Raised String :=
  cleanChoice (Text.strip (strOr py value "target")) ["source", "target"]
    "data sync schema policy must be source or target."

def resolveSyncMethod (value : Json) (engine : Engine) : Except Raised String := do
  let clean ← cleanSyncMethod py value
  return if clean ≠ "auto" then clean
    else if engine ≠ .doris then "stream_load" else "insert_select"

/-- `value if value not in (None, "") else default`. -/
def given (value : Json) (default : ℤ) : Json :=
  match value with
  | .null => .num default
  | .str "" => .num default
  | value => value

/-- A number cut to a range. -/
def cleanRange (low high : ℤ) (value : Json) (default : ℤ) : Except Raised ℤ := do
  let n ← py.int (given value default)
  return max low (min high n)

/-- `maxTableParallelism` is the setting `data_sync_max_table_parallelism`. -/
def cleanTableParallelism (maxTableParallelism : ℤ) (value : Json) : Except Raised ℤ :=
  cleanRange py 1 (max 1 maxTableParallelism) value 1

def cleanConnectionRetryAttempts (value : Json) : Except Raised ℤ := cleanRange py 1 5 value 3

def cleanConnectionRecoveryAttempts (value : Json) : Except Raised ℤ := cleanRange py 1 60 value 30

def cleanBatchSize (value : Json) : Except Raised ℤ := do
  let n ← py.int (orElse value (.num 1000))
  return max 100 (min 50000 n)

/-- `text.replace("\\" + c, r)`. -/
def replaceEscape (c r : Char) : List Char → List Char
  | '\\' :: d :: rest =>
      if d = c then r :: replaceEscape c r rest else '\\' :: replaceEscape c r (d :: rest)
  | d :: rest => d :: replaceEscape c r rest
  | [] => []

def decodeDelimiter (value : Json) : String :=
  let text := (strOr py value "").toList
  String.ofList (replaceEscape 'r' '\r' (replaceEscape 'n' '\n' (replaceEscape 't' '\t' text)))

/-! ### Texts -/

/-- `_q`: a quoted identifier. -/
def quote (name : String) : String :=
  "`" ++ String.ofList (name.toList.flatMap fun c => if c = '`' then ['`', '`'] else [c]) ++ "`"

def sqlLiteral (value : Json) : String :=
  match value with
  | .null => "NULL"
  | .bool b => if b then "1" else "0"
  | .num n => py.str (.num n)
  | .float t => py.str (.float t)
  | value =>
      "'" ++ String.ofList ((py.str value).toList.flatMap fun c =>
        if c = '\\' then ['\\', '\\'] else if c = Char.ofNat 39 then [c, c] else [c]) ++ "'"

/-- `_log_value` of a text. -/
def logText (text : String) : String :=
  let clean := Text.strip text
  if clean = "" then "-"
  else String.ofList (clean.toList.flatMap fun c =>
    if c = '\\' then ['\\', '\\'] else if c = '\r' then ['\\', 'r']
    else if c = '\n' then ['\\', 'n'] else if c = '\t' then ['\\', 't'] else [c])

def logValue (value : Json) : String := logText (strOr py value "")

def argText : Option Arg → String
  | some (.int n) => py.str (.num n)
  | some (.str s) => s
  | none => "None"

end cleaners

end DataSync
