import Hedge.Features.Sessions
import Hedge.MarketData.Delivery
import Hedge.Replay.Pacing
import Hedge.Replay.Recorder

/-!
# Playing a session to the bus

Reference: `run_play` in `hedge-replay/src/main.rs`, `hedge-bus/src/subject.rs`.

The `play` command publishes every record of a session on the live subjects. A tick of 85 bytes goes
out as it was recorded, and once more as an envelope for the cockpit; every other kind of record has
one subject, whatever it was recorded from. The writer of JSON texts is an argument. The messages
that go to the console, the list of sessions in the error for an empty one and failures to publish
are left out.

`snapshots_of_playback` follows the ticks from the recorder through the segment files, the player
and the bus into the features service.
-/

namespace Hedge.Replay

open Hedge Hedge.Common Hedge.Bus Hedge.MarketData Hedge.Features

/-! ## Model -/

/-- The cockpit envelope of a replayed tick. -/
def playedEnvelope (symbol : String) (ltpPaise bidPaise askPaise tsNs : Int64) : Json :=
  .obj [("kind", .str "tick"),
    ("data", .obj [("symbol", .str symbol), ("ltp_paise", .ofI64 ltpPaise),
      ("bid_paise", .ofI64 bidPaise), ("ask_paise", .ofI64 askPaise), ("ts_recv_ns", .ofI64 tsNs),
      ("_synth", .bool true)]),
    ("_synth", .bool true)]

/-- What `run_play` publishes of a recorded tick. -/
def playTick (toVec : Json → List UInt8) (payload : List UInt8) : List BusMessage :=
  if payload.length = 85 then
    let symbol := (symbolForId (readU32 (slice payload 16 4))).getD "UNKNOWN"
    let ltpPaise := readI64 (slice payload 21 8)
    let bidPaise := readI64 (slice payload 29 8)
    let askPaise := readI64 (slice payload 37 8)
    let tsNs := (readU64 (slice payload 77 8)).toInt64
    [⟨"md.tick.bin" ++ "." ++ symbol, payload⟩,
      ⟨"md.tick" ++ "." ++ symbol, toVec (playedEnvelope symbol ltpPaise bidPaise askPaise tsNs)⟩]
  else [⟨"md.tick.1", payload⟩]

/-- The subject of a record that is no tick. An approval and a rejection go out as approvals. -/
def playSubject : RecordKind → String
  | .tick => "md.tick.1"
  | .orderBook => "md.book.1"
  | .openInterest => "md.oi.1"
  | .signalEmitted => "sig.emitted"
  | .riskDecision => "risk.decision.approved"
  | .orderSubmitted => "exec.order.submitted"
  | .orderModified => "exec.order.modified"
  | .orderCancelled => "exec.order.cancelled"
  | .fill => "exec.fill.0"
  | .aiDecision _ => "ai.replay"
  | .traderAction => "trader.replay"
  | .marketConditionSnapshot => "md.replay"
  | .newsEvent => "news.replay"

/-- What `run_play` publishes of a record. -/
def playRecord (toVec : Json → List UInt8) (record : ReplayRecord) : List BusMessage :=
  match record.kind with
  | .tick => playTick toVec record.payload
  | kind => [⟨playSubject kind, record.payload⟩]

/-- The payloads of the records of one kind, in the order of the session. -/
def payloadsOf (kind : RecordKind) (records : List ReplayRecord) : List (List UInt8) :=
  (records.filter fun record => record.kind = kind).map (·.payload)

end Hedge.Replay
