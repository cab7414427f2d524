import Hedge.Common.Run
import Hedge.Features.Engine
import Hedge.MarketData.Ticks
import Hedge.Signals.Strategies

/-!
# The correlation ids of signals

Reference: `encode_tick_v1` of the Upstox bridge, `process_tick_into_state`, `evaluate_strategies`,
`build_signal`.

The bridge writes sixteen zero bytes and leaves it to the engine that ingests the tick to mint an
id. No stage does: each copies the bytes. Two signals of a run carry different ids only if there are
no two signals.
-/

namespace Hedge.Pipeline

open Hedge Hedge.Common Hedge.Bus Hedge.MarketData Hedge.Features Hedge.Signals

/-! ## Model -/

/-- The arguments of `encode_tick_v1`. -/
structure UpstoxTick where
  symbol : String
  ltpPaise : Int64
  bidPaise : Int64
  askPaise : Int64
  tsNs : Int64

namespace UpstoxTick

/-- The tick that the features service reads, if the symbol is in the table. -/
def decoded (t : UpstoxTick) : Option Tick :=
  (encodeTickV1 t.symbol t.ltpPaise t.bidPaise t.askPaise t.tsNs).bind decodeTick

/-- The record of a tick. -/
def record (t : UpstoxTick) : Tick where
  correlationId := Vector.replicate 16 0
  symbol := symbolIdFor t.symbol
  exchange := 0
  ltpPaise := t.ltpPaise
  bidPaise := t.bidPaise
  askPaise := t.askPaise
  ltq := 0
  totalBuyQty := 0
  totalSellQty := 0
  tsExchangeNs := t.tsNs.toUInt64
  tsRecvNs := t.tsNs.toUInt64

end UpstoxTick

/-- What reaches the features and the signal engine. The configuration may change from tick to
tick. -/
inductive FeedInput where
  | tick (t : UpstoxTick) (cfg : SignalEngineConfig) (previousDay : Option PreviousDayMemory)
  | orderflow (sym : SymbolId) (pressure : ExactFloat)
  | resetSymbol (sym : SymbolId)

/-- The arguments of one call of `evaluate_strategies`. -/
structure Evaluation where
  snap : FeatureSnapshot
  cfg : SignalEngineConfig
  previousDay : Option PreviousDayMemory

namespace Evaluation

/-- The context of the call. -/
def ctx (e : Evaluation) : StrategyContext := e.cfg.context e.previousDay

/-- The signals of the call. -/
def signals (setups : List Setup) (e : Evaluation) : List Signal :=
  evaluateStrategies (setups.map Setup.strategy) e.snap e.cfg e.previousDay

/-- The setup is toggled on, enabled in the regime and not blocked by news, its guards take a side,
and in war mode its confidence reaches the floor. -/
def Trades (e : Evaluation) (setup : Setup) : Prop :=
  (e.cfg.toggles.isEnabled setup.id = true ∧ setup.enabledIn e.cfg.regime = true ∧
    e.cfg.newsGates.isSymbolBlocked ⟨e.snap.symbol⟩ = false) ∧
  (setup.side e.snap e.ctx).isSome = true ∧
  (e.cfg.warMode = true →
    ((clamp01 (setup.confidence e.snap)).add ExactFloat.f32Epsilon).lt e.cfg.warModeMinConfidence
      = false)

/-- What one strategy contributes. -/
def emit (e : Evaluation) (setup : Setup) : Option Signal :=
  if !(checkGates setup.strategy e.ctx ⟨e.snap.symbol⟩ none).isAllowed then none
  else match setup.strategy.evaluate e.snap e.ctx with
    | none => none
    | some sig => if !(checkWarMode sig e.ctx).isAllowed then none else some sig

end Evaluation

/-- One input: the calls of `evaluate_strategies` it leads to. -/
def feedStep (libm : Libm) (engine : FeatureExtractionEngine) :
    FeedInput → List Evaluation × FeatureExtractionEngine
  | .tick t cfg previousDay =>
    match t.decoded with
    | none => ([], engine)
    | some tick =>
      let out := engine.processTick libm tick
      ([⟨out.2, cfg, previousDay⟩], out.1)
  | .orderflow sym pressure => ([], engine.ingestOrderflowPressure sym pressure)
  | .resetSymbol sym => ([], engine.resetSymbol sym)

/-- The calls of `evaluate_strategies` in a run. -/
def evaluations (libm : Libm) (engine : FeatureExtractionEngine) (inputs : List FeedInput) :
    List Evaluation :=
  (runOutputs (feedStep libm) engine inputs).flatten

section Runs

variable (libm : Libm) (setups : List Setup) (engine : FeatureExtractionEngine)
  (inputs : List FeedInput)

/-- The signals of a run. -/
def runSignals : List Signal :=
  (evaluations libm engine inputs).flatMap (Evaluation.signals setups)

/-- Every call paired with every strategy, in the order in which they are asked. -/
def candidates : List (Evaluation × Setup) :=
  (evaluations libm engine inputs).flatMap fun e => setups.map fun setup => (e, setup)

/-- Any two signals of the run carry different ids. -/
def IdsDistinct : Prop :=
  (runSignals libm setups engine inputs).Pairwise fun a b => a.correlationId ≠ b.correlationId

/-! ## The ids -/

/-- The service reads what the bridge meant to write. -/
theorem UpstoxTick.decoded_eq (t : UpstoxTick) :
    t.decoded = if symbolIdFor t.symbol = 0 then none else some t.record := by
  by_cases h : symbolIdFor t.symbol = 0
  · simp [decoded, encodeTickV1, h]
  · have hbytes : encodeTickV1 t.symbol t.ltpPaise t.bidPaise t.askPaise t.tsNs
        = some (tickToRawBytes t.record) := by
      simp only [encodeTickV1, if_neg h]
      rfl
    rw [decoded, hbytes, Option.bind_some, decodeTick_tickToRawBytes, if_neg h]

/-- A snapshot carries sixteen zero bytes, whatever the state of the engine. -/
theorem correlationId_of_mem_feedStep (input : FeedInput) :
    ∀ e ∈ (feedStep libm engine input).1, e.snap.correlationId = Vector.replicate 16 0 := by
  cases input with
  | tick t cfg previousDay =>
    rw [feedStep, t.decoded_eq]
    split_ifs
    · simp
    · intro e he
      rw [List.mem_singleton.mp he]
      rfl
  | orderflow sym pressure => simp [feedStep]
  | resetSymbol sym => simp [feedStep]

/-- Every snapshot of a run carries sixteen zero bytes. -/
theorem correlationId_of_mem_evaluations {e : Evaluation}
    (h : e ∈ evaluations libm engine inputs) :
    e.snap.correlationId = Vector.replicate 16 0 := by
  obtain ⟨out, hout, he⟩ := List.mem_flatten.mp h
  have hall : ∀ out ∈ runOutputs (feedStep libm) engine inputs,
      ∀ e ∈ out, e.snap.correlationId = Vector.replicate 16 0 :=
    runOutputs_forall (feedStep libm) (fun _ => True) (A := fun _ => True)
      (fun _ _ _ _ => trivial)
      (fun engine input _ _ => correlationId_of_mem_feedStep libm engine input)
      trivial (fun _ _ => trivial)
  exact hall out hout e he

/-! ## What is emitted -/

theorem Evaluation.signals_eq (e : Evaluation) : e.signals setups = setups.filterMap e.emit := by
  rw [signals, evaluateStrategies, List.filterMap_map]
  rfl

theorem Evaluation.correlationId_of_emit {e : Evaluation} {setup : Setup} {sig : Signal}
    (h : e.emit setup = some sig) : sig.correlationId = e.snap.correlationId := by
  rw [emit] at h
  split_ifs at h
  split at h
  · cases h
  · rename_i sig' heval
    split_ifs at h
    cases h
    exact setup.correlationId_of_evaluate _ _ heval

/-- A strategy emits a signal exactly if it trades. -/
theorem Evaluation.isSome_emit_iff (e : Evaluation) (setup : Setup) :
    (e.emit setup).isSome = true ↔ e.Trades setup := by
  have hgates : (checkGates setup.strategy e.ctx ⟨e.snap.symbol⟩ none).isAllowed = true ↔
      e.cfg.toggles.isEnabled setup.id = true ∧ setup.enabledIn e.cfg.regime = true ∧
        e.cfg.newsGates.isSymbolBlocked ⟨e.snap.symbol⟩ = false := by
    rw [checkGates_isAllowed]
    simp [sectorBlocked, ctx, SignalEngineConfig.context, Setup.strategy, and_assoc]
  rw [Trades, ← hgates, emit]
  cases (checkGates setup.strategy e.ctx ⟨e.snap.symbol⟩ none).isAllowed with
  | false => simp
  | true =>
    cases hside : setup.side e.snap e.ctx with
    | none => simp [Setup.strategy, hside]
    | some side =>
      have heval : setup.strategy.evaluate e.snap e.ctx
          = some (buildSignal e.snap.correlationId setup.id ⟨e.snap.symbol⟩ side
            (setup.baseProbability e.snap) (setup.confidence e.snap)
            (setup.riskProfile e.snap side) e.snap.tsNs) := by
        simp [Setup.strategy, hside]
      have hwar := checkWarMode_isAllowed (buildSignal e.snap.correlationId setup.id
        ⟨e.snap.symbol⟩ side (setup.baseProbability e.snap) (setup.confidence e.snap)
        (setup.riskProfile e.snap side) e.snap.tsNs) e.ctx
      simp only [heval, hwar]
      simp [ctx, SignalEngineConfig.context, buildSignal, imp_iff_not_or]

/-- The signals of a run are what its candidates emit. -/
theorem runSignals_eq :
    runSignals libm setups engine inputs =
      (candidates libm setups engine inputs).filterMap fun c => c.1.emit c.2 := by
  rw [runSignals, candidates, List.filterMap_flatMap]
  refine List.flatMap_congr fun e _ => ?_
  rw [e.signals_eq, List.filterMap_map]
  rfl

theorem mem_evaluations_of_mem_candidates {c : Evaluation × Setup}
    (h : c ∈ candidates libm setups engine inputs) : c.1 ∈ evaluations libm engine inputs := by
  obtain ⟨e, he, hc⟩ := List.mem_flatMap.mp h
  obtain ⟨setup, -, rfl⟩ := List.mem_map.mp hc
  exact he

/-- The signals of a run carry different ids exactly if no two strategies trade, be it on two ticks
or on one. -/
theorem idsDistinct_iff :
    IdsDistinct libm setups engine inputs ↔
      (candidates libm setups engine inputs).Pairwise
        fun a b => ¬ (a.1.Trades a.2 ∧ b.1.Trades b.2) := by
  rw [IdsDistinct, runSignals_eq, List.pairwise_filterMap]
  refine List.Pairwise.iff_of_mem fun {a b} ha hb => ?_
  have hzeroa := correlationId_of_mem_evaluations libm engine inputs
    (mem_evaluations_of_mem_candidates libm setups engine inputs ha)
  have hzerob := correlationId_of_mem_evaluations libm engine inputs
    (mem_evaluations_of_mem_candidates libm setups engine inputs hb)
  rw [← a.1.isSome_emit_iff, ← b.1.isSome_emit_iff]
  constructor
  · rintro hne ⟨ha, hb⟩
    obtain ⟨siga, hsiga⟩ := Option.isSome_iff_exists.mp ha
    obtain ⟨sigb, hsigb⟩ := Option.isSome_iff_exists.mp hb
    refine hne siga hsiga sigb hsigb ?_
    rw [Evaluation.correlationId_of_emit hsiga, Evaluation.correlationId_of_emit hsigb, hzeroa,
      hzerob]
  · intro hnot siga hsiga sigb hsigb
    exact absurd ⟨Option.isSome_of_eq_some hsiga, Option.isSome_of_eq_some hsigb⟩ hnot

end Runs

/-- Three rising prices of an index, under the configuration of a fresh engine. -/
def risingIndex : List FeedInput :=
  [.tick ⟨"NSE_INDEX|Nifty 50", 10000, 10000, 10000, 1⟩ .default none,
    .tick ⟨"NSE_INDEX|Nifty 50", 20000, 20000, 20000, 2⟩ .default none,
    .tick ⟨"NSE_INDEX|Nifty 50", 30000, 30000, 30000, 3⟩ .default none]

/-- The second and the third price make the same strategy buy, under one id. -/
theorem risingIndex_share_id :
    (runSignals ⟨id, id⟩ defaultSetups ∅ risingIndex).map
        (fun sig => (sig.strategy, sig.side, sig.correlationId)) =
      [(6, 0, Vector.replicate 16 0), (6, 0, Vector.replicate 16 0)] ∧
    ¬ ∀ (libm : Libm) (setups : List Setup) (engine : FeatureExtractionEngine)
        (inputs : List FeedInput), IdsDistinct libm setups engine inputs := by
  have hrun : (runSignals ⟨id, id⟩ defaultSetups ∅ risingIndex).map
      (fun sig => (sig.strategy, sig.side, sig.correlationId)) =
      [(6, 0, Vector.replicate 16 0), (6, 0, Vector.replicate 16 0)] := by decide +kernel
  refine ⟨hrun, fun h => ?_⟩
  have hpair := h ⟨id, id⟩ defaultSetups ∅ risingIndex
  have hids := (List.pairwise_map (f := fun sig : Signal =>
    (sig.strategy, sig.side, sig.correlationId)) (R := fun a b => a.2.2 ≠ b.2.2)).mpr hpair
  rw [hrun] at hids
  simp at hids

end Hedge.Pipeline
