import Hedge.Common.Json
import Hedge.Common.Run
import Hedge.Common.Selection
import Hedge.Common.Table
import Mathlib.Algebra.Group.Nat.Defs
import Mathlib.Data.Prod.Lex

/-!
# The previous-day memory

Reference: `hedge_warm_ai/prev_day/compute.py`, `hedge_warm_ai/prev_day/engine.py`,
`hedge_memory_rag/timescale/models.py`, `readers.py`, `writers.py`.

At the end of a session the engine starts a job: it asks a provider for the data of the session,
builds a row for every symbol, writes the rows in batches, publishes each of them and announces that
the dataset is ready. The job is a coroutine; what an awaited call gives back is an action of its
own, and any other action may come between two of them. Dates are days and times microseconds since
1970.

The free-form markers of a row, its summary and its vector in Qdrant are left out: the upsert of the
vectors is an `await` whose outcome nothing reads.
-/

namespace Hedge.Ai.PrevDay

open Hedge.Common

/-! ## Rows -/

/-- `PrevDayKeyLevelKind`. -/
inductive KeyLevelKind where
  | support
  | resistance
  | swingHigh
  | swingLow
  | vwap
  | openPrice
  | closePrice
deriving DecidableEq, Repr

/-- The kind a text names. -/
def KeyLevelKind.ofText : String → Option KeyLevelKind
  | "support" => some .support
  | "resistance" => some .resistance
  | "swing_high" => some .swingHigh
  | "swing_low" => some .swingLow
  | "vwap" => some .vwap
  | "open" => some .openPrice
  | "close" => some .closePrice
  | _ => none

/-- `PrevDayKeyLevel`. -/
structure KeyLevel where
  kind : KeyLevelKind
  pricePaise : ℤ
deriving DecidableEq, Repr

/-- A key level as the aggregator gives it: `none` for a field that is missing or of another type. -/
structure RawKeyLevel where
  kind : Option String
  pricePaise : Option ℤ
deriving DecidableEq, Repr

/-- `SymbolSessionData`. -/
structure SymbolSessionData where
  symbolId : ℤ
  symbol : String
  sessionDate : ℤ
  openPaise : ℤ
  highPaise : ℤ
  lowPaise : ℤ
  closePaise : ℤ
  vwapPaise : ℤ
  totalVolume : ℤ
  deliveryVolume : ℤ
  keyLevels : List RawKeyLevel
deriving DecidableEq, Repr

/-- `PreviousDayMemoryRow`, with the bounds that its model validates. -/
structure PreviousDayMemoryRow where
  ts : ℤ
  sessionDate : ℤ
  symbolId : ℕ
  symbol : String
  openPaise : ℤ
  highPaise : ℤ
  lowPaise : ℤ
  closePaise : ℤ
  vwapPaise : ℤ
  totalVolume : ℕ
  deliveryVolume : ℕ
  keyLevels : List KeyLevel
  computedTsNs : ℕ
  symbolId_lt : symbolId < 2 ^ 32
  length_symbol : 1 ≤ symbol.length ∧ symbol.length ≤ 32
  length_keyLevels : keyLevels.length ≤ 16
deriving DecidableEq, Repr

/-- The failures of `build_prev_day_row`, in the order of its checks. All are `ValueError`s. -/
inductive RowError where
  | lowAboveHigh
  | outsideRange (field : String)
  | totalVolume
  | deliveryVolume
  | deliveryAboveTotal
  | computedTsNs
  | keyLevelKind
  | keyLevelPrice
  | validation
deriving DecidableEq, Repr

/-- `_coerce_key_level`. -/
def coerceKeyLevel (raw : RawKeyLevel) : Except RowError KeyLevel :=
  match raw.kind.bind KeyLevelKind.ofText with
  | none => .error .keyLevelKind
  | some kind => match raw.pricePaise with
    | none => .error .keyLevelPrice
    | some pricePaise => .ok ⟨kind, pricePaise⟩

/-- The microseconds of a day. -/
def dayUs : ℤ := 86400 * 1000000

/-- `_session_date_to_ts`. -/
def sessionDateToTs (sessionDate : ℤ) : ℤ := sessionDate * dayUs

/-- The first price that is not between the low and the high. -/
def priceOutside (data : SymbolSessionData) : Option String :=
  ([("open_paise", data.openPaise), ("close_paise", data.closePaise),
    ("vwap_paise", data.vwapPaise)].find? fun price =>
      ¬ (data.lowPaise ≤ price.2 ∧ price.2 ≤ data.highPaise)).map Prod.fst

/-- `build_prev_day_row`. -/
def buildPrevDayRow (data : SymbolSessionData) (computedTsNs : ℤ) :
    Except RowError PreviousDayMemoryRow :=
  if data.highPaise < data.lowPaise then .error .lowAboveHigh
  else match priceOutside data with
  | some field => .error (.outsideRange field)
  | none =>
    if data.totalVolume < 0 then .error .totalVolume
    else if data.deliveryVolume < 0 then .error .deliveryVolume
    else if data.totalVolume < data.deliveryVolume then .error .deliveryAboveTotal
    else if computedTsNs < 0 then .error .computedTsNs
    else match data.keyLevels.mapM coerceKeyLevel with
    | .error e => .error e
    | .ok keyLevels =>
      if h : (0 ≤ data.symbolId ∧ data.symbolId.toNat < 2 ^ 32) ∧
          (1 ≤ data.symbol.length ∧ data.symbol.length ≤ 32) ∧ keyLevels.length ≤ 16 then
        .ok
          { ts := sessionDateToTs data.sessionDate
            sessionDate := data.sessionDate
            symbolId := data.symbolId.toNat
            symbol := data.symbol
            openPaise := data.openPaise
            highPaise := data.highPaise
            lowPaise := data.lowPaise
            closePaise := data.closePaise
            vwapPaise := data.vwapPaise
            totalVolume := data.totalVolume.toNat
            deliveryVolume := data.deliveryVolume.toNat
            keyLevels
            computedTsNs := computedTsNs.toNat
            symbolId_lt := h.1.2
            length_symbol := h.2.1
            length_keyLevels := h.2.2 }
      else .error .validation

/-- `PreviousDayMemory`: the record on the wire. -/
structure PreviousDayMemory where
  symbol : String
  sessionDate : ℤ
  openPaise : ℤ
  highPaise : ℤ
  lowPaise : ℤ
  closePaise : ℤ
  vwapPaise : ℤ
  keyLevels : List KeyLevel
  tsNs : ℕ
deriving DecidableEq, Repr

/-- `build_prev_day_event`. -/
def buildPrevDayEvent (row : PreviousDayMemoryRow) : PreviousDayMemory where
  symbol := row.symbol
  sessionDate := row.sessionDate
  openPaise := row.openPaise
  highPaise := row.highPaise
  lowPaise := row.lowPaise
  closePaise := row.closePaise
  vwapPaise := row.vwapPaise
  keyLevels := row.keyLevels
  tsNs := row.computedTsNs

/-! ## The table -/

/-- The columns of the unique index. -/
def PreviousDayMemoryRow.key (row : PreviousDayMemoryRow) : ℕ × ℤ := (row.symbolId, row.ts)

/-- The table `prev_day_memory`. -/
abbrev PrevDayTable := Table PreviousDayMemoryRow.key

/-- `read_prev_day_memory` with a filter on the symbol: the rows of a window, the oldest first. -/
def readPrevDayMemory (table : PrevDayTable) (startTs endTs : ℤ) (symbol : String) (limit : ℕ) :
    List PreviousDayMemoryRow :=
  ((table.rows.filter fun row => startTs ≤ row.ts ∧ row.ts < endTs ∧ row.symbol = symbol).mergeSort
    (byKey fun row => toLex (row.ts, row.symbolId))).take limit

/-- `read_prev_day_memory_latest`. -/
def readPrevDayMemoryLatest (table : PrevDayTable) (symbolId : ℤ) : Option PreviousDayMemoryRow :=
  ((table.rows.filter fun row => (row.symbolId : ℤ) = symbolId).mergeSort
    (byKey fun row => OrderDual.toDual row.ts)).head?

/-! ## Queries -/

/-- `PrevDayQueryRequest`; the handler does not look at its `session_date`. -/
structure PrevDayQueryRequest where
  symbolIds : List ℤ
  symbols : List String
deriving DecidableEq, Repr

/-- `PrevDayQueryReply`. -/
structure PrevDayQueryReply where
  records : List PreviousDayMemory
  missing : List String
  tsNs : ℤ
deriving DecidableEq, Repr

/-- The start of the window of a query by name: 90 days back, and not before 1970. -/
def windowStart (nowUs : ℤ) : ℤ := max 0 (nowUs - 90 * dayUs)

/-- The record for a numeric id. -/
def answerId (table : PrevDayTable) (symbolId : ℤ) : Option PreviousDayMemory :=
  (readPrevDayMemoryLatest table symbolId).map buildPrevDayEvent

/-- The record for a name: of the rows read, the last. -/
def answerSymbol (table : PrevDayTable) (nowUs : ℤ) (symbol : String) : Option PreviousDayMemory :=
  ((readPrevDayMemory table (windowStart nowUs) nowUs symbol 1).getLast?).map buildPrevDayEvent

/-- `_handle_query` of a request that reads, on a table that does not change meanwhile. -/
def handleQuery (table : PrevDayTable) (nowUs clockNs : ℤ) (request : PrevDayQueryRequest) :
    Except String PrevDayQueryReply :=
  if request.symbolIds = [] ∧ request.symbols = [] then
    .error "query payload must include at least one of 'symbol_ids' or 'symbols'"
  else .ok
    { records := request.symbolIds.filterMap (answerId table) ++
        request.symbols.filterMap (answerSymbol table nowUs)
      missing := (request.symbolIds.filter fun id => (answerId table id).isNone).map toString ++
        request.symbols.filter fun symbol => (answerSymbol table nowUs symbol).isNone
      tsNs := clockNs }

/-! ## The compute job -/

/-- Where a job waits: for the provider, for the write of the next batch, for the upsert of the
vectors, for the publication of the next row, or for the last announcement. -/
inductive Stage where
  | provider
  | write (rows : List PreviousDayMemoryRow) (left : List (List PreviousDayMemoryRow))
  | index (rows : List PreviousDayMemoryRow)
  | publish (rows left : List PreviousDayMemoryRow)
  | ready (rows : List PreviousDayMemoryRow)

/-- A compute task that is not done. -/
structure Job where
  sessionDate : ℤ
  stage : Stage

/-- `PrevDayMemoryEngine` and the table it writes to. -/
structure PrevDayMemoryEngine where
  table : PrevDayTable
  computeTask : Option Job
  subscribed : Bool

/-- The collaborators of an engine and its batch size. -/
structure PrevDayConfig where
  chunkSize : ℕ
  hasProvider : Bool
  hasQdrant : Bool

/-- What is published: `mem.prev_day.<symbol_id>` and `mem.prev_day.ready`. -/
inductive Published where
  | memory (symbolId : ℕ) (event : PreviousDayMemory)
  | ready (sessionDate : ℤ) (symbolCount : ℕ) (tsNs : ℤ)
deriving DecidableEq, Repr

/-- What happens to the engine. `done` says whether the awaited call took effect, which a call that
raises or is cancelled may have done as well. -/
inductive Action where
  /-- A message on `ops.session.end`, if it is JSON, and today's date. -/
  | sessionEnd (payload : Option Json) (today : ℤ)
  /-- The provider returns, or raises. -/
  | inputs (answer : Option (List SymbolSessionData)) (clockNs : ℤ)
  /-- The write of a batch returns. -/
  | written
  /-- The upsert of the vectors returns. -/
  | indexed
  /-- A publication returns, or raises. -/
  | published (done : Bool) (clockNs : ℤ)
  /-- The write of a batch raises, the deadline passes, or `aclose` cancels the task. -/
  | interrupted (done : Bool) (clockNs : ℤ)
  /-- `aclose` has taken the subscriptions back. -/
  | unsubscribed
  /-- The process is killed, and a new one starts on the same table. -/
  | restart (done : Bool) (clockNs : ℤ)

/-- The rows of a job: those that can be built. -/
def sessionRows (inputs : List SymbolSessionData) (clockNs : ℤ) : List PreviousDayMemoryRow :=
  inputs.filterMap fun data => (buildPrevDayRow data clockNs).toOption

/-- The stage after the writes. -/
def Stage.afterWrites (cfg : PrevDayConfig) (rows : List PreviousDayMemoryRow) : Stage :=
  if cfg.hasQdrant then .index rows else .publish rows rows

/-- The stage after the call that a job waits for; `none` ends the job. -/
def Stage.next (cfg : PrevDayConfig) : Stage → Action → Option Stage
  | .provider, .inputs (some inputs) clockNs =>
    let rows := sessionRows inputs clockNs
    -- `range` raises for a batch size of zero
    if rows = [] ∨ cfg.chunkSize = 0 then none
    else some (.write rows (batches cfg.chunkSize rows))
  | .write rows (_ :: left), _ => some (if left = [] then .afterWrites cfg rows else .write rows left)
  | .index rows, _ => some (.publish rows rows)
  | .publish rows (_ :: left), _ => some (if left = [] then .ready rows else .publish rows left)
  | _, _ => none

/-- The job waits for what the action brings. -/
def Stage.awaits : Stage → Action → Bool
  | .provider, .inputs _ _ | .write _ _, .written | .index _, .indexed | .publish _ _, .published _ _
  | .ready _, .published _ _ => true
  | _, _ => false

/-- Whether the call took effect, and the clock after it. -/
def Action.outcome : Action → Bool × ℤ
  | .published done clockNs => (done, clockNs)
  | _ => (true, 0)

namespace PrevDayMemoryEngine

/-- The engine with its job at another stage. -/
def goTo (engine : PrevDayMemoryEngine) (job : Job) (stage : Stage) : PrevDayMemoryEngine :=
  { engine with computeTask := some { job with stage } }

/-- The engine without a job. -/
def idle (engine : PrevDayMemoryEngine) : PrevDayMemoryEngine := { engine with computeTask := none }

/-- The engine after the upsert of a batch. -/
def store (engine : PrevDayMemoryEngine) (batch : List PreviousDayMemoryRow) : PrevDayMemoryEngine :=
  { engine with table := engine.table.upsertAll batch }

/-- `_on_session_end`: a task starts unless one is running. Without a provider it is done at once. -/
def onSessionEnd (cfg : PrevDayConfig) (engine : PrevDayMemoryEngine) (payload : Option Json)
    (today : ℤ) : PrevDayMemoryEngine :=
  if engine.subscribed = false ∨ engine.computeTask.isSome ∨ cfg.hasProvider = false ∨
      (payload.bind (·.get "phase")).bind Json.asStr ≠ some "end" then engine
  else { engine with computeTask := some ⟨today, .provider⟩ }

/-- What the call that a job waits for does. -/
def effect (engine : PrevDayMemoryEngine) (job : Job) (clockNs : ℤ) :
    List Published × PrevDayMemoryEngine :=
  match job.stage with
  | .write _ (batch :: _) => ([], engine.store batch)
  | .publish _ (row :: _) => ([.memory row.symbolId (buildPrevDayEvent row)], engine)
  | .ready rows => ([.ready job.sessionDate rows.length clockNs], engine)
  | _ => ([], engine)

/-- The same for a call that may not have taken effect. -/
def effectIf (done : Bool) (engine : PrevDayMemoryEngine) (job : Job) (clockNs : ℤ) :
    List Published × PrevDayMemoryEngine :=
  if done then engine.effect job clockNs else ([], engine)

/-- The task ends at its `await`. -/
def interrupt (engine : PrevDayMemoryEngine) (done : Bool) (clockNs : ℤ) :
    List Published × PrevDayMemoryEngine :=
  match engine.computeTask with
  | none => ([], engine)
  | some job =>
    let out := engine.effectIf done job clockNs
    (out.1, out.2.idle)

/-- `_do_compute` goes on to its next `await`. -/
def resume (cfg : PrevDayConfig) (engine : PrevDayMemoryEngine) (job : Job) (action : Action) :
    List Published × PrevDayMemoryEngine :=
  let out := engine.effectIf action.outcome.1 job action.outcome.2
  match job.stage.next cfg action with
  | none => (out.1, out.2.idle)
  | some stage => (out.1, out.2.goTo job stage)

/-- One action; one that the job does not wait for does not occur. -/
def step (cfg : PrevDayConfig) (engine : PrevDayMemoryEngine) (action : Action) :
    List Published × PrevDayMemoryEngine :=
  match action with
  | .sessionEnd payload today => ([], engine.onSessionEnd cfg payload today)
  | .interrupted done clockNs => engine.interrupt done clockNs
  | .unsubscribed => ([], { engine with subscribed := false })
  | .restart done clockNs =>
    let out := engine.interrupt done clockNs
    (out.1, { out.2 with subscribed := true })
  | action => match engine.computeTask with
    | none => ([], engine)
    | some job => if job.stage.awaits action then engine.resume cfg job action else ([], engine)

/-- A new engine on an empty table. -/
def new : PrevDayMemoryEngine := ⟨.empty, none, true⟩

/-- The engine after some actions. -/
def after (cfg : PrevDayConfig) (actions : List Action) : PrevDayMemoryEngine :=
  runState (step cfg) new actions

end PrevDayMemoryEngine

end Hedge.Ai.PrevDay
