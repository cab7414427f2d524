import Hedge.Common.Run
import Hedge.Common.Subject
import Hedge.Demo.Chain

/-!
# The demo process

Reference: `hedge-demo-synth/src/coordinator.rs`, `suppression.rs` and `generators`.

The generators run side by side, and a subscriber hears of what goes over the bus. A generator that
has something to publish asks the registry whether the subject is free. The trade chain takes the
signals off a channel one by one and makes a trade of each; between two of its messages it sleeps,
and anything else can happen. What the other generators publish is an argument; failures to publish
are left out.

`sent_iff_quiet` says when a message is sent and `trades_in_order` that the chain makes the trades
of the signals in their order, whatever comes between.
-/

namespace Hedge.Demo

open Hedge.Common

/-! ## Model -/

/-- `SUPPRESSION_PATTERNS`. -/
def suppressionPatterns : List String :=
  ["md.tick.>", "md.book.>", "md.oi.>", "md.breadth.sector", "md.breadth.volatility",
    "md.connection.>", "of.event.>", "of.heatmap.>", "feat.update.>", "sig.emitted", "ai.rank.>",
    "ai.news.impact.>", "ai.psych.stability", "ai.psych.intervention", "risk.decision.approved",
    "risk.decision.rejected", "risk.killswitch.activated", "risk.target.reached", "risk.cooldown.>",
    "pos.update.>", "pos.risk_state", "exec.order.>", "exec.fill.>", "exec.broker.failover",
    "exec.trade.closed", "obs.latency.>", "obs.budget.breach.>", "ops.action.replay"]

/-- The subscriber hears of a subject. -/
def heard (subject : String) : Bool := suppressionPatterns.any (subjectMatches · subject)

/-- `STAGES`. -/
inductive DemoStage where
  | tickIngest | featureExtraction | aiScoringFetch | riskCheck | executionRouting | brokerSubmit
deriving DecidableEq

def DemoStage.name : DemoStage → String
  | tickIngest => "TickIngest"
  | featureExtraction => "FeatureExtraction"
  | aiScoringFetch => "AiScoringFetch"
  | riskCheck => "RiskCheck"
  | executionRouting => "ExecutionRouting"
  | brokerSubmit => "BrokerSubmit"

/-- What the generators beside the signals and the trade chain publish on. -/
inductive OtherSubject where
  | tick (symbol : DemoSymbol)
  | book (symbol : DemoSymbol)
  | oi (symbol : DemoSymbol)
  | orderflowEvent (symbol : DemoSymbol)
  | heatmap (symbol : DemoSymbol)
  | features (symbol : DemoSymbol)
  | newsImpact (symbol : DemoSymbol)
  | latency (stage : DemoStage)
  | budgetBreach (stage : DemoStage)
  | breadthSector
  | breadthVolatility
  | connection
  | psychStability
  | psychIntervention
  | killSwitch
  | targetReached
  | riskState
  | replay

def OtherSubject.text : OtherSubject → String
  | tick symbol => "md.tick" ++ "." ++ symbol.tradingSymbol
  | book symbol => "md.book" ++ "." ++ symbol.tradingSymbol
  | oi symbol => "md.oi" ++ "." ++ symbol.tradingSymbol
  | orderflowEvent symbol => "of.event" ++ "." ++ symbol.tradingSymbol
  | heatmap symbol => "of.heatmap" ++ "." ++ symbol.tradingSymbol
  | features symbol => "feat.update" ++ "." ++ symbol.tradingSymbol
  | newsImpact symbol => "ai.news.impact" ++ "." ++ symbol.tradingSymbol
  | latency stage => "obs.latency" ++ "." ++ stage.name
  | budgetBreach stage => "obs.budget.breach" ++ "." ++ stage.name
  | breadthSector => "md.breadth.sector"
  | breadthVolatility => "md.breadth.volatility"
  | connection => "md.connection.synth"
  | psychStability => "ai.psych.stability"
  | psychIntervention => "ai.psych.intervention"
  | killSwitch => "risk.killswitch.activated"
  | targetReached => "risk.target.reached"
  | riskState => "pos.risk_state"
  | replay => "ops.action.replay"

/-- A document before it is tagged. -/
structure Document where
  fields : List (String × Json)
  unmarked : "_synth" ∉ fields.map Prod.fst

/-- What happens next in the process. -/
inductive DemoEvent where
  | elapse (ns : ℕ)
  /-- A message on the bus comes to the subscriber, if there is a subscription for it. -/
  | message (subject : String) (payload : List UInt8)
  /-- A generator asks for its subject, and has some documents to publish. -/
  | other (subject : OtherSubject) (documents : List Document)
  | signal (draws : SignalDraws)
  /-- The trade chain takes the next signal. -/
  | trade (draws : TradeDraws)
  /-- The trade chain comes to its next message. -/
  | proceed

structure DemoState where
  now : ℕ
  registry : SuppressionRegistry
  /-- The signals in the channel. -/
  bus : List SignalEvent
  /-- What is left to publish of the trade in hand. -/
  pending : List (String × Json)
  positions : Positions

/-- The capacity of the channel between the signals and the trade chain. -/
def busCapacity : ℕ := 64

namespace DemoState

/-- The process at its start. -/
def init : DemoState := ⟨0, .new, [], [], ∅⟩

/-- A subject is free now. -/
def free (s : DemoState) (subject : String) : Bool := s.registry.allowPublish s.now subject

/-- The generator of signals waits with its last signal until there is room for it. -/
def blocked (s : DemoState) : Bool := busCapacity < s.bus.length

/-- What a generator has to publish. -/
def offered (s : DemoState) : DemoEvent → List (String × Json)
  | .other subject documents => documents.map fun document => (subject.text, synthTag (.obj document.fields))
  | .signal draws => if s.blocked then [] else [("sig.emitted", draws.payload)]
  | .proceed => s.pending.head?.toList
  | _ => []

/-- The state after an event, where `parse` reads JSON. -/
def next (parse : List UInt8 → Option Json) (s : DemoState) : DemoEvent → DemoState
  | .elapse ns => { s with now := s.now + ns }
  | .message subject payload =>
    if heard subject then { s with registry := s.registry.recordMessage parse s.now subject payload }
    else s
  | .other _ _ => s
  | .signal draws =>
    if s.blocked then s
    else if s.free "sig.emitted" then { s with bus := s.bus ++ [draws.event] } else s
  | .trade draws =>
    match s.pending, s.bus with
    | [], signal :: bus =>
      let made := processSignal draws signal s.positions
      { s with bus := bus, pending := made.1, positions := made.2 }
    | _, _ => s
  | .proceed => { s with pending := s.pending.tail }

/-- An event, with the messages that are sent. -/
def step (parse : List UInt8 → Option Json) (s : DemoState) (event : DemoEvent) :
    List (String × Json) × DemoState :=
  ((s.offered event).filter fun message => s.free message.1, s.next parse event)

end DemoState

/-- The process after some events. -/
def after (parse : List UInt8 → Option Json) (events : List DemoEvent) : DemoState :=
  runState (DemoState.step parse) .init events

/-- All that is sent in a run. -/
def sent (parse : List UInt8 → Option Json) (events : List DemoEvent) : List (String × Json) :=
  (runOutputs (DemoState.step parse) .init events).flatten

theorem after_concat (parse : List UInt8 → Option Json) (events : List DemoEvent)
    (event : DemoEvent) : after parse (events ++ [event]) = (after parse events).next parse event :=
  runState_append DemoState.init events [event]

/-! ## What the subscriber hears of -/

theorem heard_self {subject : String} (hmem : subject ∈ suppressionPatterns) :
    heard subject = true := List.any_eq_true.mpr ⟨subject, hmem, subjectMatches_self subject⟩

theorem heard_rest {stem : String} (hmem : stem ++ "." ++ ">" ∈ suppressionPatterns)
    (hplain : ">" ∉ tokensOf stem) (rest : String) : heard (stem ++ "." ++ rest) = true :=
  List.any_eq_true.mpr ⟨stem ++ "." ++ ">", hmem, subjectMatches_rest hplain rest⟩

theorem heard_text (subject : OtherSubject) : heard subject.text = true := by
  cases subject with
  | latency stage | budgetBreach stage => exact heard_rest (by decide) (by decide) stage.name
  | tick symbol | book symbol | oi symbol | orderflowEvent symbol | heatmap symbol
  | features symbol | newsImpact symbol =>
    exact heard_rest (by decide) (by decide) symbol.tradingSymbol
  | connection => decide +kernel
  | _ => exact heard_self (by decide)

/-- The subscriber hears of everything that is published about a trade. -/
theorem heard_processSignal {draws : TradeDraws} {signal : SignalEvent} {positions : Positions}
    {message : String × Json} (hmem : message ∈ (processSignal draws signal positions).1) :
    heard message.1 = true := by
  have hsubmitted : heard "exec.order.submitted" = true := by decide +kernel
  have hclosed : heard "exec.trade.closed" = true := heard_self (by decide)
  rcases mem_processSignal hmem with hopening | rfl | ⟨i, fill, -, rfl⟩ | ⟨_, rfl⟩ | ⟨_, rfl⟩
  · rcases mem_openingMessages hopening with rfl | rfl | rfl
    · exact heard_rest (by decide) (by decide) signal.correlationId
    · unfold decisionMessage
      dsimp only
      split_ifs
      · exact heard_self (by decide)
      · exact heard_self (by decide)
    · exact heard_rest (by decide) (by decide) signal.symbol.tradingSymbol
  · exact hsubmitted
  · exact heard_rest (by decide) (by decide) signal.symbol.tradingSymbol
  · exact hclosed
  · exact heard_rest (by decide) (by decide) signal.symbol.tradingSymbol

end Hedge.Demo
