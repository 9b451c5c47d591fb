import RecoveryService.DataSync.ExecuteTable

/-! # Stream Load

`_stream_load` sends one batch to Doris.  An attempt has its own label and up to three requests,
because of redirects; what follows an attempt is decided by the body of its last answer.  The answers
are numbered by the requests sent so far, so that an environment covers every sequence of responses and
errors.  `streamLoad_delivered` says what a call comes to. -/

namespace DataSync

open Program

/-! ### Requests and answers -/

structure Request where
  url : String
  headers : List (String × String)
  label : String
  payload : String

/-- What `_stream_load_http_put` comes to; the body of an `HTTPError` is still to be read. -/
inductive Answer where
  | response (status : ℤ) (location : Option String) (body : String)
  | httpError (code : ℤ) (location : Option String) (read : Except Raised String)
  | raised (exc : Raised)

def Answer.body? : Answer → Option String
  | .response _ _ body => some body
  | .httpError _ _ read => read.toOption
  | .raised _ => none

/-- What `json.loads` comes to. -/
inductive Loads where
  | value (v : Json)
  | decodeError
  | raised (exc : Raised)

/-- The profile and the functions of other packages. -/
structure Http where
  host : String
  username : String
  password : Except Raised String
  base64 : String → String
  quoteUrl : String → String
  uuid : ℕ → String
  put : ℕ → Answer
  rewriteRedirect : String → Except Raised String
  retrySleep : Except Raised Unit
  loads : String → Loads

/-- A program that sends requests. -/
abbrev Sending := Program (List Request) Raised

section

variable (py : Python) (http : Http)

/-- `_stream_load_http_put`. -/
def httpPut (request : Request) : Sending Answer := fun sent =>
  (.ok (http.put sent.length), sent ++ [request])

/-! ### Bodies -/

/-- `_is_retryable_stream_load_error`. -/
def isRetryableStreamLoadError (body : String) : Bool :=
  ["[e-240]", "have not get fe master heartbeat yet"].any fun marker =>
    decide (marker.toList <:+: (py.lower body).toList)

/-- `_stream_load_retry_attempts`. -/
def streamLoadRetryAttempts (config : Dict) : Except Raised ℤ :=
  cleanRange py 1 5 (config.get "stream_load_retry_attempts") 3

def heartbeatText (attempts : ℕ) (body : String) : String :=
  "Stream Load 失败：Doris FE 主节点心跳未就绪，已尝试 " ++ toString attempts ++ " 次仍失败。" ++
    "请检查 FE master/BE 状态或稍后重试。原始返回：" ++ body

/-- A body that reports an error: another attempt follows, or an exception. -/
def tryAgain (attempts loadAttempt : ℕ) (body text : String) : Except Raised Unit :=
  if isRetryableStreamLoadError py body = true ∧ loadAttempt < attempts then .ok ()
  else if isRetryableStreamLoadError py body = true ∧ 1 < attempts then
    .error (valueError (heartbeatText attempts body))
  else .error (valueError text)

/-- The location of a redirect that is followed. -/
def redirectTo (status : ℤ) (location : Option String) (redirectAttempt : ℕ) : Option String :=
  if (status = 307 ∨ status = 308) ∧ redirectAttempt < 2 then location.filter (· ≠ "") else none

def httpText (status : ℤ) (body : String) : String :=
  "Stream Load 失败：HTTP " ++ toString status ++ " " ++ body

/-! ### The loops -/

variable (attempts : ℕ) (headers : List (String × String)) (payload : String)

/-- `for redirect_attempt in range(3)`: the body the loop ends with. -/
def requestLoop (loadAttempt : ℕ) (label : String) : List ℕ → String → String → Sending String
  | [], _, body => pure body
  | redirectAttempt :: rest, url, body => do
      match ← httpPut http ⟨url, headers, label, payload⟩ with
      | .response status location body =>
          match redirectTo status location redirectAttempt with
          | some location => do
              let url ← lift (http.rewriteRedirect location)
              requestLoop loadAttempt label rest url body
          | none => do
              onlyIf (400 ≤ status)
                (lift (tryAgain py attempts loadAttempt body (httpText status body)))
              pure body
      | .httpError code location read =>
          match redirectTo code location redirectAttempt with
          | some location => do
              let url ← lift (http.rewriteRedirect location)
              requestLoop loadAttempt label rest url body
          | none => do
              let body ← lift read
              lift (tryAgain py attempts loadAttempt body (httpText code body))
              pure body
      | .raised exc => raise exc

/-- `json.loads(body)` with its handler. -/
def parseBody (body : String) : Except Raised Json :=
  match http.loads body with
  | .value v => .ok v
  | .decodeError => .ok (.obj [("Status", .str "Unknown"), ("Message", .str body)])
  | .raised exc => .error exc

def attributeError : Raised := { info := { kind := .other, name := "AttributeError" } }

/-- `int(parsed.get(key) or parsed.get(other) or default)`. -/
def readCount (parsed : Json) (key other : String) (default : ℤ) : Except Raised ℤ :=
  py.int (orElse (orElse (parsed.get key) (parsed.get other)) (.num default))

/-- The result a body with a good status gives. -/
def loadResult (loadAttempt : ℕ) (parsed : Json) (status : String) : Except Raised Dict := do
  let totalRows ← readCount py parsed "NumberTotalRows" "numberTotalRows" 0
  let loadedRows ← readCount py parsed "NumberLoadedRows" "numberLoadedRows" 0
  let loadBytes ← readCount py parsed "LoadBytes" "loadBytes" payload.utf8ByteSize
  return [("status", .str status),
    ("message", orElse (orElse (parsed.get "Message") (parsed.get "msg")) (.str "")),
    ("number_total_rows", .num totalRows), ("number_loaded_rows", .num loadedRows),
    ("load_bytes", .num loadBytes), ("attempts", .num loadAttempt)]

def statusOf (parsed : Json) : String :=
  py.str (orElse (orElse (parsed.get "Status") (parsed.get "status")) (.str ""))

/-- What stands behind the requests of an attempt: a result, or nothing where another attempt
follows. -/
def judge (loadAttempt : ℕ) (body : String) : Except Raised (Option Dict) := do
  let parsed ← parseBody http body
  match parsed with
  | .obj _ =>
      if py.lower (statusOf py parsed) ∈ ["success", "publish timeout"] then do
        let result ← loadResult py payload loadAttempt parsed (statusOf py parsed)
        return some result
      else do
        tryAgain py attempts loadAttempt body ("Stream Load 失败：" ++ body)
        return none
  | _ => .error attributeError

def loadLabel (batchIndex loadAttempt : ℕ) : String :=
  "data_sync_" ++ http.uuid loadAttempt ++ "_" ++ toString batchIndex ++ "_" ++ toString loadAttempt

/-- `for load_attempt in range(1, retry_attempts + 1)`; `final` stands behind the loop and gets
`last_retryable_body`. -/
def loadLoop (batchIndex : ℕ) (url : String) (final : String → Dict) : List ℕ → String → Sending Dict
  | [], lastBody => pure (final lastBody)
  | loadAttempt :: rest, _ => do
      let body ← requestLoop py http attempts headers payload loadAttempt
        (loadLabel http batchIndex loadAttempt) (List.range 3) url ""
      match ← lift (judge py http attempts payload loadAttempt body) with
      | some result => pure result
      | none => loadLoop batchIndex url final rest body

end

/-! ### The call -/

section

variable (py : Python) (http : Http)

/-- `_stream_load_header_delimiter`. -/
def headerDelimiter (text : String) : String :=
  String.ofList (text.toList.flatMap fun c =>
    if c = '\r' then ['\\', 'r'] else if c = '\n' then ['\\', 'n']
    else if c = '\t' then ['\\', 't'] else [c])

def baseHeaders (password : String) (columns : List String) (config : Dict) : List (String × String) :=
  [("Authorization", "Basic " ++ http.base64 (http.username ++ ":" ++ password)),
    ("Expect", "100-continue"), ("format", "csv"),
    ("column_separator", headerDelimiter (strOr py (config.get "field_delimiter") ",")),
    ("line_delimiter", headerDelimiter (strOr py (config.get "line_delimiter") "\n")),
    ("columns", String.intercalate "," (columns.map quote)),
    ("strict_mode", if (config.get "strict_mode").truthy then "true" else "false"),
    ("max_filter_ratio", strOr py (config.get "max_filter_ratio") "1")]

/-- `_stream_load` with the statement that stands behind its loop. -/
def streamLoadEnding (final : ℕ → String → Dict) (database table : String) (columns : List String)
    (payload : String) (config : Dict) (batchIndex : ℕ) : Sending Dict := do
  let password ← lift http.password
  let port ← lift (py.int (orElse (config.get "stream_load_http_port") (.num 8030)))
  let url := "http://" ++ http.host ++ ":" ++ toString port ++ "/api/" ++ http.quoteUrl database ++
    "/" ++ http.quoteUrl table ++ "/_stream_load"
  let headers := baseHeaders py http password columns config
  let _ ← lift (py.int (orElse (config.get "stream_load_timeout_seconds") (.num 300)))
  let attempts ← lift (streamLoadRetryAttempts py config)
  lift http.retrySleep
  loadLoop py http attempts.toNat headers payload batchIndex url (final attempts.toNat)
    (List.range' 1 attempts.toNat) ""

/-- The return behind the loop. -/
def exhaustedResult (payload : String) (attempts : ℕ) (lastBody : String) : Dict :=
  [("status", .str "failed"), ("message", .str lastBody), ("number_total_rows", .num 0),
    ("number_loaded_rows", .num 0), ("load_bytes", .num payload.utf8ByteSize),
    ("attempts", .num attempts)]

/-- `_stream_load`. -/
def streamLoad (database table : String) (columns : List String) (payload : String) (config : Dict)
    (batchIndex : ℕ) : Sending Dict :=
  streamLoadEnding py http (exhaustedResult payload) database table columns payload config batchIndex

end

end DataSync
