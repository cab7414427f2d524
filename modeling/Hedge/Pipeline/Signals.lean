import Hedge.Common.JsonText
import Hedge.Risk.Service
import Hedge.Signals.Engine

/-!
# From the signal engine to the risk gate

Reference: `SignalEngine::publish` of `hedge-signals/src/engine.rs`, `handle_signal` of
`hedge-risk/src/main.rs`.

The signal engine publishes a binary record on the subject on which the risk service reads JSON. The
service fills in a stop loss and a take profit of zero, so a record it could read would have to
contain zero bytes, which no JSON text does. The JSON reader is an argument.
-/

namespace Hedge.Pipeline

open Hedge Hedge.Common Hedge.Risk Hedge.Signals

/-- `handle_signal` with the payload of a message. -/
def handleSignalBytes (parse : List UInt8 → Option Json) (mac : Mac) (eng : RiskEngine)
    (s : RiskEngineState) (env : SignalEnv) (bytes : List UInt8) :
    Option (RiskSubject × Json) × RiskEngineState :=
  match parse bytes with
  | none => (none, s)
  | some v => handleSignal mac eng s env v

/-- The signals on which the risk service calls `evaluate` for some messages. -/
def riskEvaluations (parse : List UInt8 → Option Json) (messages : List BusMessage) : List Signal :=
  (delivered "sig.emitted" messages).filterMap fun bytes => (parse bytes).bind buildSignalV1

/-- The service publishes a decision and changes its state only for a signal it evaluates. -/
theorem handleSignalBytes_of_unread {parse : List UInt8 → Option Json} {bytes : List UInt8}
    (h : (parse bytes).bind buildSignalV1 = none) (mac : Mac) (eng : RiskEngine)
    (s : RiskEngineState) (env : SignalEnv) :
    handleSignalBytes parse mac eng s env bytes = (none, s) := by
  rw [handleSignalBytes]
  cases hparse : parse bytes with
  | none => rfl
  | some v =>
    rw [hparse, Option.bind_some] at h
    simp only [handleSignal, h]

/-- The message of a signal leads to one evaluation, of a signal with its fields. -/
def ReachesRisk (parse : List UInt8 → Option Json) (signal : Signal) : Prop :=
  ∃ evaluated, riskEvaluations parse (publishSignal signal) = [evaluated] ∧
    evaluated.correlationId = signal.correlationId ∧ evaluated.symbol = signal.symbol ∧
    evaluated.side = signal.side ∧ evaluated.confidence = signal.confidence ∧
    evaluated.riskProfile.stopLossPaise = signal.riskProfile.stopLossPaise ∧
    evaluated.riskProfile.takeProfitPaise = signal.riskProfile.takeProfitPaise ∧
    evaluated.riskProfile.maxSizeQty = signal.riskProfile.maxSizeQty

theorem riskEvaluations_publishSignal (parse : List UInt8 → Option Json) (signal : Signal) :
    riskEvaluations parse (publishSignal signal)
      = ((parse (encodeSignal signal)).bind buildSignalV1).toList := by
  have hdelivered : delivered "sig.emitted" (publishSignal signal) = [encodeSignal signal] := by
    have hmatch : tokensMatch (tokensOf "sig.emitted") (tokensOf "sig.emitted") = true := by decide
    rw [delivered, publishSignal, List.filter_cons, if_pos hmatch]
    rfl
  rw [riskEvaluations, hdelivered, List.filterMap_cons]
  cases (parse (encodeSignal signal)).bind buildSignalV1 <;> rfl

/-- What the service reads has no stop loss. -/
theorem stopLossPaise_of_buildSignalV1 {v : Json} {signal : Signal}
    (h : buildSignalV1 v = some signal) : signal.riskProfile.stopLossPaise = 0 := by
  unfold buildSignalV1 at h
  split at h
  · cases h
  · split_ifs at h
    cases h
    rfl

/-- No signal reaches the risk gate unchanged. -/
theorem never_reachesRisk {parse : List UInt8 → Option Json} (hparse : ReadsTexts parse)
    (signal : Signal) : ¬ ReachesRisk parse signal := by
  rintro ⟨evaluated, hone, -, -, -, -, hstop, -⟩
  rw [riskEvaluations_publishSignal] at hone
  have hread : (parse (encodeSignal signal)).bind buildSignalV1 = some evaluated := by
    cases hsome : (parse (encodeSignal signal)).bind buildSignalV1 with
    | none => simp [hsome] at hone
    | some e => simpa [hsome] using hone
  obtain ⟨v, hv, hbuild⟩ := Option.bind_eq_some_iff.mp hread
  have hzero : (0 : UInt8) ∈ encodeSignal signal := by
    have hfield : leI64 signal.riskProfile.stopLossPaise ∈ signalFields signal := by
      simp [signalFields]
    refine List.mem_flatten.mpr ⟨_, hfield, ?_⟩
    rw [← hstop, stopLossPaise_of_buildSignalV1 hbuild]
    decide
  rw [hparse.eq_none hzero not_textByte_zero] at hv
  cases hv

/-- A signal to buy the first symbol. -/
def lostSignal : Signal :=
  ⟨Vector.replicate 16 7, 2, 1, 0, .fin (5 / 8), .fin (3 / 4), ⟨249000, 252000, 100, 300⟩, 1⟩

theorem never_reachesRisk_lostSignal : ¬ ReachesRisk (fun _ => none) lostSignal :=
  never_reachesRisk readsTexts_none lostSignal

/-- Whatever JSON reader is used, that signal is not evaluated, and nothing is decided or
remembered. -/
theorem lostSignal_unread :
    (∀ parse : List UInt8 → Option Json, ReadsTexts parse →
      riskEvaluations parse (publishSignal lostSignal) = [] ∧
      ∀ (mac : Mac) (eng : RiskEngine) (s : RiskEngineState) (env : SignalEnv),
        handleSignalBytes parse mac eng s env (encodeSignal lostSignal) = (none, s)) ∧
    ¬ ∀ parse : List UInt8 → Option Json, ReadsTexts parse → ∀ signal : Signal,
      ReachesRisk parse signal := by
  have hunread : ∀ parse : List UInt8 → Option Json, ReadsTexts parse →
      (parse (encodeSignal lostSignal)).bind buildSignalV1 = none := by
    intro parse hparse
    have hzero : (0 : UInt8) ∈ encodeSignal lostSignal :=
      List.mem_flatten.mpr ⟨leU32 1, by simp [signalFields, lostSignal], by decide⟩
    rw [hparse.eq_none hzero not_textByte_zero, Option.bind_none]
  have hnever : ∀ parse : List UInt8 → Option Json, ReadsTexts parse →
      riskEvaluations parse (publishSignal lostSignal) = [] := by
    intro parse hparse
    rw [riskEvaluations_publishSignal, hunread parse hparse]
    rfl
  refine ⟨fun parse hparse => ⟨hnever parse hparse, fun mac eng s env =>
    handleSignalBytes_of_unread (hunread parse hparse) mac eng s env⟩, fun h => ?_⟩
  obtain ⟨evaluated, hone, -⟩ := h _ readsTexts_none lostSignal
  rw [hnever _ readsTexts_none] at hone
  cases hone

end Hedge.Pipeline
