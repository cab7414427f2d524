import Hedge.Common.Layout
import Hedge.Common.Subject
import Hedge.Signals.Gating

/-!
# The signal engine

Reference: `hedge-signals/src/engine.rs`.

`evaluate_strategies` asks the news gate without a sector. What it returns is compared here with the
signals that also a blocked sector holds back (`gatedSignals`). The copy of a signal on the Redis
stream is left out.
-/

namespace Hedge.Signals

open Hedge Hedge.Common

/-! ## Model -/

structure SignalEngineConfig where
  regime : Regime
  toggles : StrategyToggles
  warMode : Bool
  warModeMinConfidence : ExactFloat
  newsGates : NewsGates

namespace SignalEngineConfig

/-- The configuration of a fresh engine. -/
def default : SignalEngineConfig where
  regime := .trending
  toggles := .allEnabled
  warMode := false
  warModeMinConfidence := .fin (7 / 10)
  newsGates := .empty

/-- The context of one evaluation. -/
def context (cfg : SignalEngineConfig) (previousDay : Option PreviousDayMemory) :
    StrategyContext where
  regime := cfg.regime
  traderConfig := cfg.toggles
  warMode := cfg.warMode
  warModeMinConfidence := cfg.warModeMinConfidence
  previousDay := previousDay
  newsGates := cfg.newsGates

end SignalEngineConfig

/-- `evaluate_strategies`. -/
def evaluateStrategies (strategies : List Strategy) (snap : FeatureSnapshot)
    (cfg : SignalEngineConfig) (previousDay : Option PreviousDayMemory) : List Signal :=
  let symbol : SymbolId := ⟨snap.symbol⟩
  let ctx := cfg.context previousDay
  strategies.filterMap fun strategy =>
    if !(checkGates strategy ctx symbol none).isAllowed then none
    else match strategy.evaluate snap ctx with
      | none => none
      | some sig => if !(checkWarMode sig ctx).isAllowed then none else some sig

/-- The fields of a signal in the order of the schema. -/
def signalFields (signal : Signal) : List (List UInt8) :=
  [signal.correlationId.toList, [signal.strategy], leU32 signal.symbol, [signal.side],
    leF32 signal.baseProbability, leF32 signal.confidence, leI64 signal.riskProfile.stopLossPaise,
    leI64 signal.riskProfile.takeProfitPaise, leU64 signal.riskProfile.maxSizeQty,
    leU32 signal.riskProfile.timeHorizonSeconds, leU64 signal.tsNs]

/-- `encode_signal`. -/
def encodeSignal (signal : Signal) : List UInt8 := (signalFields signal).flatten

/-- What `SignalEngine::publish` puts on the bus. -/
def publishSignal (signal : Signal) : List BusMessage := [⟨"sig.emitted", encodeSignal signal⟩]

/-! ## Gated signals -/

section Gated

variable (sectorOf : SymbolId → Option SectorId) (strategies : List Strategy)
  (snap : FeatureSnapshot) (cfg : SignalEngineConfig) (previousDay : Option PreviousDayMemory)

/-- The strategies that are toggled on, enabled in the regime and free of a news block of their
symbol. -/
def openStrategies : List Strategy :=
  strategies.filter fun strategy => cfg.toggles.isEnabled strategy.id &&
    strategy.enabledIn cfg.regime && !cfg.newsGates.isSymbolBlocked ⟨snap.symbol⟩

/-- `meets_war_mode_floor`. -/
def meetsWarModeFloor (confidence : ExactFloat) : Bool :=
  if !cfg.warMode then true
  else cfg.warModeMinConfidence.le (confidence.add ExactFloat.f32Epsilon)

/-- What the engine is meant to return. -/
def gatedSignals : List Signal :=
  (((openStrategies strategies snap cfg).filter
      fun _ => !sectorBlocked cfg.newsGates (sectorOf ⟨snap.symbol⟩)).filterMap
    fun strategy => strategy.evaluate snap (cfg.context previousDay)).filter
      fun sig => meetsWarModeFloor cfg sig.confidence

/-- Every signal that passes the gates of the engine comes from a sector that is not blocked and, in
war mode, compares with the floor. -/
def CandidatesClear : Prop :=
  ∀ strategy ∈ openStrategies strategies snap cfg, ∀ sig,
    strategy.evaluate snap (cfg.context previousDay) = some sig →
    (checkWarMode sig (cfg.context previousDay)).isAllowed →
    sectorBlocked cfg.newsGates (sectorOf ⟨snap.symbol⟩) = false ∧
      (cfg.warMode → sig.confidence.isNan = false ∧ cfg.warModeMinConfidence.isNan = false)

/-! ## What the engine returns -/

/-- The signals of the open strategies that war mode lets through. -/
theorem evaluateStrategies_eq :
    evaluateStrategies strategies snap cfg previousDay =
      ((openStrategies strategies snap cfg).filterMap
        fun strategy => strategy.evaluate snap (cfg.context previousDay)).filter
          fun sig => (checkWarMode sig (cfg.context previousDay)).isAllowed := by
  rw [openStrategies, List.filterMap_filter, List.filter_filterMap, evaluateStrategies]
  refine congrArg (List.filterMap · strategies) (funext fun strategy => ?_)
  have hgates : (checkGates strategy (cfg.context previousDay) ⟨snap.symbol⟩ none).isAllowed =
      (cfg.toggles.isEnabled strategy.id && strategy.enabledIn cfg.regime &&
        !cfg.newsGates.isSymbolBlocked ⟨snap.symbol⟩) := by
    rw [checkGates_isAllowed]
    simp [sectorBlocked, SignalEngineConfig.context]
  simp only [hgates]
  cases cfg.toggles.isEnabled strategy.id && strategy.enabledIn cfg.regime &&
      !cfg.newsGates.isSymbolBlocked ⟨snap.symbol⟩ with
  | false => rfl
  | true =>
    cases strategy.evaluate snap (cfg.context previousDay) with
    | none => rfl
    | some sig =>
      simp only [if_true, Option.filter_some]
      cases (checkWarMode sig (cfg.context previousDay)).isAllowed <;> rfl

/-- Below the floor is what does not meet it, unless a NaN is compared. -/
theorem checkWarMode_isAllowed_eq (sig : Signal) :
    (checkWarMode sig (cfg.context previousDay)).isAllowed =
      (meetsWarModeFloor cfg sig.confidence ||
        (cfg.warMode && (sig.confidence.isNan || cfg.warModeMinConfidence.isNan))) := by
  rw [checkWarMode_isAllowed, ExactFloat.not_lt_eq, ExactFloat.f32Epsilon,
    ExactFloat.isNan_add_fin, meetsWarModeFloor]
  simp only [SignalEngineConfig.context]
  cases cfg.warMode with
  | false => rfl
  | true => simp [ExactFloat.f32Epsilon, Bool.or_assoc]

/-- The intended signals are those of the returned ones whose sector is free and that meet the
floor. -/
theorem gatedSignals_eq :
    gatedSignals sectorOf strategies snap cfg previousDay =
      (evaluateStrategies strategies snap cfg previousDay).filter fun sig =>
        !sectorBlocked cfg.newsGates (sectorOf ⟨snap.symbol⟩) &&
          meetsWarModeFloor cfg sig.confidence := by
  rw [evaluateStrategies_eq, gatedSignals, List.filter_filter]
  cases sectorBlocked cfg.newsGates (sectorOf ⟨snap.symbol⟩) with
  | true => simp
  | false =>
    simp only [Bool.not_false, List.filter_true, Bool.true_and]
    refine List.filter_congr fun sig _ => ?_
    rw [checkWarMode_isAllowed_eq]
    cases meetsWarModeFloor cfg sig.confidence <;> rfl

/-- The engine returns the gated signals, in the order of the strategies, exactly if none of its
candidates comes from a blocked sector or has a confidence that the floor cannot be compared with. -/
theorem evaluateStrategies_gated_iff :
    evaluateStrategies strategies snap cfg previousDay
        = gatedSignals sectorOf strategies snap cfg previousDay ↔
      CandidatesClear sectorOf strategies snap cfg previousDay := by
  rw [gatedSignals_eq, eq_comm, List.filter_eq_self, evaluateStrategies_eq]
  constructor
  · intro h strategy hopen sig heval hwar
    have hclear := h sig (List.mem_filter.mpr
      ⟨List.mem_filterMap.mpr ⟨strategy, hopen, heval⟩, hwar⟩)
    rw [Bool.and_eq_true, Bool.not_eq_true'] at hclear
    refine ⟨hclear.1, fun hmode => ?_⟩
    have hmeets := hclear.2
    rw [meetsWarModeFloor, hmode] at hmeets
    obtain ⟨hfloor, hconf⟩ := ExactFloat.isNan_of_le hmeets
    exact ⟨(ExactFloat.isNan_add_fin _ _).symm.trans hconf, hfloor⟩
  · intro h sig hsig
    obtain ⟨hcand, hwar⟩ := List.mem_filter.mp hsig
    obtain ⟨strategy, hopen, heval⟩ := List.mem_filterMap.mp hcand
    obtain ⟨hsector, hnan⟩ := h strategy hopen sig heval hwar
    have hincomparable : (cfg.warMode && (sig.confidence.isNan || cfg.warModeMinConfidence.isNan))
        = false := by
      cases hmode : cfg.warMode with
      | false => rfl
      | true =>
        obtain ⟨hconf, hfloor⟩ := hnan hmode
        rw [hconf, hfloor]
        rfl
    rw [checkWarMode_isAllowed_eq, hincomparable, Bool.or_false] at hwar
    rw [hsector, hwar]
    rfl

end Gated

/-- A snapshot of the first symbol. -/
def flatSnapshot : FeatureSnapshot :=
  ⟨Vector.replicate 16 0, 1, 10000, 10000, 0, 10000, 10000, 10000, .fin 0, .fin 0, .fin 0, .fin 50,
    .fin 0, 10000, 10000, 0, .fin 0, .fin 0, 0, .fin 0, .fin 0, .fin 0, 1⟩

/-- A strategy that always buys. -/
def alwaysBuy : Strategy where
  id := .momentumBreakout
  evaluate snap _ := some ⟨snap.correlationId, 2, snap.symbol, 0, .fin (1 / 2), .fin (9 / 10),
    ⟨9850, 10250, 100, 300⟩, snap.tsNs⟩
  enabledIn _ := true

/-- The signal of a symbol is returned although its sector is blocked. -/
theorem blocked_sector_signal :
    (evaluateStrategies [alwaysBuy] flatSnapshot
      { SignalEngineConfig.default with newsGates := ⟨[⟨2⟩], []⟩ } none).length = 1 ∧
    gatedSignals (fun _ => some ⟨2⟩) [alwaysBuy] flatSnapshot
      { SignalEngineConfig.default with newsGates := ⟨[⟨2⟩], []⟩ } none = [] ∧
    ¬ ∀ (sectorOf : SymbolId → Option SectorId) (strategies : List Strategy)
        (snap : FeatureSnapshot) (cfg : SignalEngineConfig)
        (previousDay : Option PreviousDayMemory),
      evaluateStrategies strategies snap cfg previousDay
        = gatedSignals sectorOf strategies snap cfg previousDay := by
  have hreturned : (evaluateStrategies [alwaysBuy] flatSnapshot
      { SignalEngineConfig.default with newsGates := ⟨[⟨2⟩], []⟩ } none).length = 1 := by decide
  have hgated : gatedSignals (fun _ => some ⟨2⟩) [alwaysBuy] flatSnapshot
      { SignalEngineConfig.default with newsGates := ⟨[⟨2⟩], []⟩ } none = [] := by decide
  refine ⟨hreturned, hgated, fun h => ?_⟩
  rw [h fun _ => some ⟨2⟩, hgated] at hreturned
  cases hreturned

end Hedge.Signals
