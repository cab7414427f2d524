import Hedge.Bus
import Hedge.Common.Json
import Hedge.Risk.Gates

/-!
# The risk service

Reference: `hedge-risk/src/main.rs`.

Handling one `sig.emitted` message is a function of the message, of the engine's state and of what
the WarmCache and the clocks answer while it is handled (`SignalEnv`). It returns the message it
published, if any, and the next state. Logging and the best-effort persistence of the soft state are
left out; the latter restores nothing into the engine.
-/

namespace Hedge.Risk

open Hedge.Common Hedge.Core Hedge.Bus

/-- The subjects the service publishes on. -/
inductive RiskSubject where
  | decisionApproved
  | decisionRejected
deriving DecidableEq, Repr

/-- The text of a subject. -/
def RiskSubject.text : RiskSubject → String
  | decisionApproved => "risk.decision.approved"
  | decisionRejected => "risk.decision.rejected"

/-- What the service sees while it handles one signal. -/
structure SignalEnv where
  warmCache : WarmCacheView
  ist : IstReading
  frequencyNs : UInt64
  cooldownNs : UInt64
  mintNs : UInt64
  /-- The reading of `Utc::now()` in `build_decision_payload`. -/
  publishNs : Int64

/-! ## Reading a signal -/

/-- The side byte of a signal; an unknown text is a buy. -/
def signalSide (side : String) : UInt8 :=
  match side with
  | "buy" | "Buy" | "BUY" => 0
  | "sell" | "Sell" | "SELL" => 1
  | _ => 0

/-- The first sixteen bytes of the text, padded with zeros at the end. -/
def signalCid (s : String) : Vector UInt8 16 := Vector.ofFn fun i => s.toUTF8.toList.getD i.val 0

/-- The correlation id of a message, as text. -/
def signalCidText (v : Json) : String := ((v.get "correlation_id").bind Json.asStr).getD ""

/-- `build_signal_v1`: `none` without a known symbol. -/
def buildSignalV1 (v : Json) : Option Signal :=
  match (v.get "symbol").bind Json.asStr with
  | none => none
  | some symbol =>
    if symbolIdFor symbol = 0 then none
    else some
      { correlationId := signalCid (signalCidText v)
        strategy := 0
        symbol := symbolIdFor symbol
        side := signalSide (((v.get "side").bind Json.asStr).getD "buy")
        baseProbability :=
          (ExactFloat.fin (((v.get "base_probability").bind Json.asF64).getD (1 / 2))).toF32
        confidence := (ExactFloat.fin (((v.get "confidence").bind Json.asF64).getD (1 / 2))).toF32
        riskProfile := ⟨0, 0, 100, 60⟩
        tsNs := ((v.get "ts_ns").bind Json.asU64).getD 0 }

/-- The entry price of a message; zero without one. -/
def signalPrice (v : Json) : Int64 := ((v.get "entry_price_paise").bind Json.asI64).getD 0

/-- What the service hands to `evaluate_no_obs`. -/
def evalInput (env : SignalEnv) (v : Json) (signal : Signal) : EvalInput :=
  ⟨signal, signalPrice v, env.warmCache, env.ist, env.frequencyNs, env.cooldownNs, env.mintNs⟩

/-! ## Publishing a decision -/

/-- The text of a side byte. -/
def sideText (side : UInt8) : String :=
  match side with
  | 0 => "buy"
  | 1 => "sell"
  | _ => "buy"

/-- `build_decision_payload`. Neither the token nor the price is part of it. -/
def buildDecisionPayload (correlationId : String) (decision : RiskDecision) (signal : Signal)
    (nowNs : Int64) : RiskSubject × Json :=
  match decision with
  | .approved _ sizedQuantity _ => (.decisionApproved, .obj
      [("kind", .str "decision"),
        ("data", .obj
          [("correlation_id", .str correlationId),
            ("approved", .bool true),
            ("rationale_code", .ofU64 0),
            ("rationale", .str "approved"),
            ("sized_quantity", .ofU64 sizedQuantity),
            ("side", .str (sideText signal.side)),
            ("symbol", .str ((symbolForId signal.symbol).getD "UNKNOWN")),
            ("ts_ns", .ofI64 nowNs)])])
  | .rejected reason _ => (.decisionRejected, .obj
      [("kind", .str "decision"),
        ("data", .obj
          [("correlation_id", .str correlationId),
            ("approved", .bool false),
            ("rationale_code", .ofU64 reason.asU8.toUInt64),
            ("rationale", .str reason.asStr),
            ("sized_quantity", .ofU64 0),
            ("ts_ns", .ofI64 nowNs)])])

/-- `handle_signal`. -/
def handleSignal (mac : Mac) (eng : RiskEngine) (s : RiskEngineState) (env : SignalEnv) (v : Json) :
    Option (RiskSubject × Json) × RiskEngineState :=
  match buildSignalV1 v with
  | none => (none, s)
  | some signal =>
    let evaluated := evaluateInner mac eng s (evalInput env v signal)
    (some (buildDecisionPayload (signalCidText v) evaluated.1 signal env.publishNs), evaluated.2)

/-! ## What a handled signal publishes -/

section Handle

variable {mac : Mac} {eng : RiskEngine} {s : RiskEngineState} {env : SignalEnv} {v : Json}

theorem signalSide_cases (side : String) : signalSide side = 0 ∨ signalSide side = 1 := by
  unfold signalSide
  split <;> first | exact .inl rfl | exact .inr rfl

/-- What a signal that reads is made of. -/
theorem buildSignalV1_inv {signal : Signal} (h : buildSignalV1 v = some signal) :
    (∃ symbol, symbolIdFor symbol ≠ 0 ∧ signal.symbol = symbolIdFor symbol) ∧
      signal.correlationId = signalCid (signalCidText v) ∧ (signal.side = 0 ∨ signal.side = 1) := by
  unfold buildSignalV1 at h
  split at h
  · cases h
  · rename_i symbol _
    split_ifs at h with hunknown
    rw [← Option.some.inj h]
    exact ⟨⟨symbol, hunknown, rfl⟩, rfl, signalSide_cases _⟩

theorem buildSignalV1_side {signal : Signal} (h : buildSignalV1 v = some signal) :
    signal.side = signalSide (((v.get "side").bind Json.asStr).getD "buy") := by
  unfold buildSignalV1 at h
  split at h
  · cases h
  · split_ifs at h
    rw [← Option.some.inj h]

/-- An approval is published exactly for a signal that reads and passes every gate. -/
theorem handleSignal_approved_iff {payload : Json} :
    (handleSignal mac eng s env v).1 = some (.decisionApproved, payload) ↔
      ∃ signal token q r, buildSignalV1 v = some signal ∧
        (evaluateInner mac eng s (evalInput env v signal)).1 = .approved token q r ∧
        buildDecisionPayload (signalCidText v) (.approved token q r) signal env.publishNs
          = (.decisionApproved, payload) := by
  unfold handleSignal
  cases hread : buildSignalV1 v with
  | none => simp
  | some signal =>
    simp only [Option.some.injEq]
    cases hdec : (evaluateInner mac eng s (evalInput env v signal)).1 with
    | approved token q r =>
      constructor
      · intro h
        exact ⟨signal, token, q, r, rfl, hdec, h⟩
      · rintro ⟨_, _, _, _, rfl, hdec', h⟩
        rw [hdec] at hdec'
        cases hdec'
        exact h
    | rejected reason r =>
      constructor
      · intro h
        cases congrArg Prod.fst h
      · rintro ⟨_, _, _, _, rfl, hdec', -⟩
        rw [hdec] at hdec'
        cases hdec'

/-- A signal that reads and passes every gate has an approval published. -/
theorem handleSignal_publishes (mac : Mac) {signal : Signal} (hread : buildSignalV1 v = some signal)
    (hgates : firstFailing eng s (evalInput env v signal) = none) :
    ∃ payload, (handleSignal mac eng s env v).1 = some (.decisionApproved, payload) := by
  obtain ⟨r, hdec, -⟩ := (evaluateInner_outcome mac eng s (evalInput env v signal)).approved hgates
  exact ⟨_, handleSignal_approved_iff.mpr ⟨signal, _, _, r, hread, hdec, rfl⟩⟩

end Handle

end Hedge.Risk
