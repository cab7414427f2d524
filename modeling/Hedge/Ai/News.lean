import Hedge.Common.Pool
import Hedge.Common.Recency
import Mathlib.Algebra.Order.Ring.Rat

/-!
# The news engine

Reference: `hedge_warm_ai/news/engine.py`, `dedup.py`, `fast_path.py`, `headline.py`, `config.py`,
`hedge_warm_ai/schemas/ai_news_impact.py`.

`ingest` drops a headline whose text was seen lately, has the fast path score it, publishes the
impact, starts two background tasks for it and tells its caller what it did. The calls of `ingest` and
the tasks are coroutines on one loop: each runs alone up to the next `await`, and then any of them may
go on. What an awaited call gives back is an argument of the step after it.
-/

namespace Hedge.Ai.News

open Hedge.Common

/-! ## Headlines and scores -/

/-- `Headline`, without the fields that only the sinks read; the correlation id is there in hex if the
source gave one. -/
structure Headline where
  headlineId : String
  text : String
  symbolsHint : List String
  tsNs : ℕ
  correlationId : Option String
deriving DecidableEq

/-- `SymbolMap`. -/
structure SymbolMap where
  symbols : List String
  primary : Option String
deriving DecidableEq

/-- The symbols of a list that are tracked, each once. -/
def matchTracked (tracked : List String) (candidates : List String) : List String :=
  candidates.foldl (fun matched s => if s ∈ tracked ∧ s ∉ matched then matched ++ [s] else matched) []

/-- `symbol_map`; `tokens` are the capital tokens of the text. -/
def symbolMap (hinted tokens tracked : List String) : SymbolMap :=
  let symbols := tracked.filter (· ≠ "")
  if symbols = [] then
    let hinted := hinted.filter (· ≠ "")
    ⟨hinted, hinted.head?⟩
  else
    let byHint := matchTracked symbols hinted
    let matched := if byHint = [] then matchTracked symbols tokens else byHint
    ⟨matched, matched.head?⟩

theorem matchTracked_concat (tracked candidates : List String) (s : String) :
    matchTracked tracked (candidates ++ [s]) =
      if s ∈ tracked ∧ s ∉ matchTracked tracked candidates then
        matchTracked tracked candidates ++ [s]
      else matchTracked tracked candidates :=
  List.foldl_concat ..

theorem mem_matchTracked {tracked candidates : List String} {s : String} :
    s ∈ matchTracked tracked candidates ↔ s ∈ candidates ∧ s ∈ tracked := by
  induction candidates using List.reverseRecOn with
  | nil => simp [matchTracked]
  | append_singleton candidates t ih =>
    rw [matchTracked_concat, List.mem_append, List.mem_singleton]
    split_ifs with ht
    · rw [List.mem_append, List.mem_singleton, ih]
      grind
    · rw [ih]
      grind

theorem nodup_matchTracked (tracked candidates : List String) :
    (matchTracked tracked candidates).Nodup := by
  induction candidates using List.reverseRecOn with
  | nil => exact List.nodup_nil
  | append_singleton candidates t ih =>
    rw [matchTracked_concat]
    split_ifs with ht
    · rw [← List.concat_eq_append]
      exact ih.concat ht.2
    · exact ih

/-- With symbols to track, a headline maps to tracked ones only, each once. -/
theorem symbolMap_tracked {hinted tokens tracked : List String}
    (h : tracked.filter (· ≠ "") ≠ []) :
    (symbolMap hinted tokens tracked).symbols.Nodup ∧
      ∀ s ∈ (symbolMap hinted tokens tracked).symbols,
        s ∈ tracked ∧ s ≠ "" ∧ (s ∈ hinted ∨ s ∈ tokens) := by
  simp only [symbolMap, if_neg h]
  have hmem : ∀ {candidates : List String} {s : String},
      s ∈ matchTracked (tracked.filter (· ≠ "")) candidates →
      s ∈ candidates ∧ s ∈ tracked ∧ s ≠ "" := by
    intro candidates s hs
    simpa using mem_matchTracked.mp hs
  split_ifs with hhint
  · exact ⟨nodup_matchTracked _ _, fun s hs =>
      ⟨(hmem hs).2.1, (hmem hs).2.2, Or.inr (hmem hs).1⟩⟩
  · exact ⟨nodup_matchTracked _ _, fun s hs =>
      ⟨(hmem hs).2.1, (hmem hs).2.2, Or.inl (hmem hs).1⟩⟩

/-- What FinBERT and the scores make of a text. -/
structure Scores where
  sentiment : ℚ
  impactMagnitude : ℚ
  tokens : List String
deriving DecidableEq

/-- `FastPathResult`. -/
structure FastPathResult where
  headline : Headline
  sentiment : ℚ
  impactMagnitude : ℚ
  mapping : SymbolMap
deriving DecidableEq

/-- `NewsImpact`, with the bounds of its schema. -/
structure NewsImpact where
  correlationId : String
  symbol : String
  headlineId : String
  sentiment : ℚ
  impactMagnitude : ℚ
  slowPathPending : Bool
  tsNs : ℕ
  correlationId_bounds : 1 ≤ correlationId.length ∧ correlationId.length ≤ 64
  symbol_bounds : 1 ≤ symbol.length ∧ symbol.length ≤ 32
  headlineId_bounds : 1 ≤ headlineId.length ∧ headlineId.length ≤ 128
  sentiment_bounds : -1 ≤ sentiment ∧ sentiment ≤ 1
  impactMagnitude_bounds : 0 ≤ impactMagnitude ∧ impactMagnitude ≤ 1

/-- `NewsConfig` and the collaborators the engine was built with. -/
structure NewsConfig where
  dedupWindow : ℕ
  symbols : List String
  slowPathEnabled : Bool
  embedder : Bool
  slowPath : Bool
  contentHash : String → String
  dedupWindow_pos : 0 < dedupWindow

/-- `_slow_path_will_dispatch`. -/
def NewsConfig.slowPathWillDispatch (config : NewsConfig) : Bool :=
  config.slowPath && config.slowPathEnabled

/-- The rest of `FastPath.run` after FinBERT has answered. -/
def NewsConfig.fastPath (config : NewsConfig) (h : Headline) (scores : Scores) : FastPathResult :=
  ⟨h, scores.sentiment, scores.impactMagnitude,
    symbolMap h.symbolsHint scores.tokens config.symbols⟩

/-- `_build_impact`; a failed validation raises. -/
def NewsConfig.buildImpact (config : NewsConfig) (fast : FastPathResult) (primary freshId : String)
    (nowNs : ℕ) : Option NewsImpact :=
  let cid := fast.headline.correlationId.getD freshId
  if h : (1 ≤ cid.length ∧ cid.length ≤ 64) ∧ (1 ≤ primary.length ∧ primary.length ≤ 32) ∧
      (1 ≤ fast.headline.headlineId.length ∧ fast.headline.headlineId.length ≤ 128) ∧
      (-1 ≤ fast.sentiment ∧ fast.sentiment ≤ 1) ∧
      (0 ≤ fast.impactMagnitude ∧ fast.impactMagnitude ≤ 1) then
    some ⟨cid, primary, fast.headline.headlineId, fast.sentiment, fast.impactMagnitude,
      config.slowPathWillDispatch, if 0 < fast.headline.tsNs then fast.headline.tsNs else nowNs,
      h.1, h.2.1, h.2.2.1, h.2.2.2.1, h.2.2.2.2⟩
  else none

/-! ## The engine -/

/-- A background task, at the `await` it has come to. -/
inductive Task where
  | embedding (fast : FastPathResult)
  | upserting (fast : FastPathResult)
  | reasoning (fast : FastPathResult)
  | submitting (fast : FastPathResult)
deriving DecidableEq

/-- `NewsIntelligenceEngine`, with what the bus and the sinks have been given. -/
structure Engine where
  keys : List String
  ingestionCount : ℕ
  dedupDrops : ℕ
  unmappedCount : ℕ
  pending : List Task
  published : List NewsImpact
  upserted : List FastPathResult
  submitted : List FastPathResult

/-- `NewsIngestionResult`. -/
structure NewsIngestionResult where
  deduped : Bool
  impact : Option NewsImpact
  fast : Option FastPathResult
  slowPathScheduled : Bool
  embeddingScheduled : Bool

/-- How a call of `ingest` ends. -/
inductive CallEnd where
  | returned (result : NewsIngestionResult)
  | raised

/-- What a call gave back, if it returned. -/
def CallEnd.result? : CallEnd → Option NewsIngestionResult
  | .returned result => some result
  | .raised => none

/-- Where a call of `ingest` stands. -/
inductive CallPoint where
  | idle
  | scoring (h : Headline)
  | publishing (fast : FastPathResult) (impact : NewsImpact)

/-- What a section of `ingest` comes to: the next `await` or the end of the call. -/
inductive Turn where
  | await (point : CallPoint)
  | done (callEnd : CallEnd)

/-- Where the caller stands after a section. -/
def Turn.point : Turn → CallPoint
  | .await point => point
  | .done _ => .idle

/-- The end of the call, if the section came to it. -/
def Turn.callEnd? : Turn → Option CallEnd
  | .await _ => none
  | .done callEnd => some callEnd

/-- What the publisher gives back. -/
inductive PublishReply where
  | ok
  | newsPublishError
  | otherError
deriving DecidableEq

/-- A step of the loop. -/
inductive Step where
  | ingest (tid : ℕ) (h : Headline)
  | scored (tid : ℕ) (scores : Option Scores) (freshId : String) (nowNs : ℕ)
  | published (tid : ℕ) (reply : PublishReply)
  | task (idx : ℕ) (ok : Bool)

/-- `_maybe_schedule_embedding`. -/
def Engine.maybeScheduleEmbedding (config : NewsConfig) (e : Engine) (fast : FastPathResult) :
    Bool × Engine :=
  if config.embedder then (true, { e with pending := e.pending ++ [.embedding fast] })
  else (false, e)

/-- `_maybe_schedule_slow_path`. -/
def Engine.maybeScheduleSlowPath (config : NewsConfig) (e : Engine) (fast : FastPathResult) :
    Bool × Engine :=
  if config.slowPathWillDispatch then (true, { e with pending := e.pending ++ [.reasoning fast] })
  else (false, e)

/-- `ingest` up to its first `await`. -/
def Engine.observe (config : NewsConfig) (e : Engine) (h : Headline) : Turn × Engine :=
  let (known, keys) := useKey config.dedupWindow e.keys (config.contentHash h.text)
  if known then
    (.done (.returned ⟨true, none, none, false, false⟩), { e with
      keys := keys
      dedupDrops := e.dedupDrops + 1
      ingestionCount := e.ingestionCount + 1 })
  else (.await (.scoring h), { e with keys := keys })

/-- `ingest` from the answer of FinBERT to the call of the publisher; `none` is an error of FinBERT. -/
def Engine.score (config : NewsConfig) (e : Engine) (h : Headline) (scores : Option Scores)
    (freshId : String) (nowNs : ℕ) : Turn × Engine :=
  match scores with
  | none => (.done .raised, e)
  | some scores =>
    let fast := config.fastPath h scores
    match fast.mapping.primary with
    | none => (.done (.returned ⟨false, none, some fast, false, false⟩), { e with
        unmappedCount := e.unmappedCount + 1
        ingestionCount := e.ingestionCount + 1 })
    | some primary => match config.buildImpact fast primary freshId nowNs with
      | none => (.done .raised, e)
      | some impact => (.await (.publishing fast impact), e)

/-- `ingest` after the publisher has taken the impact or its `NewsPublishError` was logged. -/
def Engine.schedule (config : NewsConfig) (e : Engine) (fast : FastPathResult)
    (impact : NewsImpact) : Turn × Engine :=
  let (embeddingScheduled, e) := e.maybeScheduleEmbedding config fast
  let (slowPathScheduled, e) := e.maybeScheduleSlowPath config fast
  (.done (.returned ⟨false, some impact, some fast, slowPathScheduled, embeddingScheduled⟩),
    { e with ingestionCount := e.ingestionCount + 1 })

/-- The rest of `ingest`: a `NewsPublishError` is dropped, any other error ends the call. -/
def Engine.finish (config : NewsConfig) (e : Engine) (fast : FastPathResult)
    (impact : NewsImpact) (reply : PublishReply) : Turn × Engine :=
  match reply with
  | .ok => { e with published := e.published ++ [impact] }.schedule config fast impact
  | .newsPublishError => e.schedule config fast impact
  | .otherError => (.done .raised, e)

/-- A step of `_embed_and_persist` or `_run_slow_path`, and the point it goes on to, if it does. A
sink that fails has been given the record, and its error is dropped. -/
def Engine.runTask (e : Engine) (ok : Bool) : Task → Option Task × Engine
  | .embedding fast => (if ok then some (.upserting fast) else none, e)
  | .upserting fast => (none, { e with upserted := e.upserted ++ [fast] })
  | .reasoning fast => (if ok then some (.submitting fast) else none, e)
  | .submitting fast => (none, { e with submitted := e.submitted ++ [fast] })

/-- The engine at its construction. -/
def Engine.init : Engine := ⟨[], 0, 0, 0, [], [], [], []⟩

/-- The calls of `ingest` over the engine. -/
abbrev Loop := Pool Engine CallPoint

/-- A caller after a section of its call. -/
def Loop.turn (c : Loop) (tid : ℕ) (outcome : Turn × Engine) : Option (ℕ × CallEnd) × Loop :=
  (outcome.1.callEnd?.map (tid, ·), c.goto tid outcome.1.point outcome.2)

/-- One step, and the call that ends in it. A call that is under way does not start another, and one
that is not awaiting a reply does not get it. -/
def loopStep (config : NewsConfig) (c : Loop) : Step → Option (ℕ × CallEnd) × Loop
  | .ingest tid h => match c.threads tid with
    | .idle => c.turn tid (c.shared.observe config h)
    | _ => (none, c)
  | .scored tid scores freshId nowNs => match c.threads tid with
    | .scoring h => c.turn tid (c.shared.score config h scores freshId nowNs)
    | _ => (none, c)
  | .published tid reply => match c.threads tid with
    | .publishing fast impact => c.turn tid (c.shared.finish config fast impact reply)
    | _ => (none, c)
  | .task idx ok => match c.shared.pending[idx]? with
    | some task =>
      let (next, e) := c.shared.runTask ok task
      (none, { c with shared := { e with
        pending := c.shared.pending.take idx ++ next.toList ++ c.shared.pending.drop (idx + 1) } })
    | none => (none, c)

/-- The loop before the first headline. -/
def Loop.init : Loop := ⟨.init, fun _ => .idle⟩

/-- The loop after some steps. -/
def Loop.after (config : NewsConfig) (steps : List Step) : Loop :=
  runState (loopStep config) .init steps

/-- The calls that ended in some steps, each with its caller and its end. -/
def ended (config : NewsConfig) (steps : List Step) : List (ℕ × CallEnd) :=
  (runOutputs (loopStep config) .init steps).filterMap id

/-- What the calls that returned gave back. -/
def returned (config : NewsConfig) (steps : List Step) : List NewsIngestionResult :=
  (ended config steps).filterMap fun call => call.2.result?

end Hedge.Ai.News
