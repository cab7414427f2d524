import Hedge.Common.Pool
import Hedge.Obs.LogRing
import Mathlib.Algebra.Order.Group.Multiset

/-!
# Shipping log records to Loki

Reference: `hedge-obs/src/logging.rs`, `hedge-obs/src/loki_shipper.rs`, `hedge-obs/src/lib.rs`.

Threads log; the layer sends a record to the shipper's channel while Loki is reachable and puts it in
the backlog otherwise. One task reads the channel and pushes to Loki; a push that succeeds after one
that failed is followed by the backlog. The threads and the task share the flag, the channel and the
backlog, and take turns between their accesses to these in any order. What becomes of a record is
kept beside the state: it is delivered, dropped at the source, displaced from a full backlog, or
abandoned in the middle of a backlog.
-/

namespace Hedge.Obs

open Hedge.Common

/-! ## Records -/

/-- A `tracing` level. -/
inductive Level where
  | trace
  | debug
  | info
  | warn
  | error
deriving DecidableEq

/-- `Severity`. -/
inductive Severity where
  | low
  | high
deriving DecidableEq

/-- `Severity::from_level`. -/
def Severity.fromLevel : Level → Severity
  | .warn | .error => .high
  | .trace | .debug | .info => .low

/-- An event with its message rendered. -/
structure LogEvent where
  timestampNs : ℕ
  level : Level
  target : String
  message : String
deriving DecidableEq

/-- `LogEnvelope`. -/
structure LogEnvelope where
  timestampNs : ℕ
  level : Level
  target : String
  message : String
  severity : Severity
deriving DecidableEq

/-- The envelope that `on_event` builds. -/
def LogEvent.envelope (ev : LogEvent) : LogEnvelope :=
  ⟨ev.timestampNs, ev.level, ev.target, ev.message, .fromLevel ev.level⟩

/-- `LOKI_BACKLOG_CAPACITY`. -/
def lokiBacklogCapacity : ℕ := 256

/-- The capacity of the channel that `init` makes. -/
def lokiChannelCapacity : ℕ := 1024

/-- `LokiLayer`: whether it has a sender, and its configuration. -/
structure LokiLayer where
  sender : Bool
  dropLowSeverityOnUnavailable : Bool

/-! ## The shared state -/

/-- Where a call of `handle_envelope` stands. -/
inductive CallPoint where
  | idle
  | buffering (env : LogEnvelope)
  | sending (env : LogEnvelope)

/-- Where `run_loki_shipper` stands. -/
inductive ShipperPoint where
  | receiving
  | pushing (env : LogEnvelope)
  | warning (env : LogEnvelope) (warn : LogEvent)
  | draining
  | flushing (entries : List LogEnvelope)
  | rebuffering (env : LogEnvelope)

/-- What threads and shipper share, where the shipper stands, and what became of the records. -/
structure Shipping where
  unavailable : Bool
  channel : List LogEnvelope
  backlog : BoundedRingLogBuffer lokiBacklogCapacity LogEnvelope
  shipper : ShipperPoint
  backoffMs : ℕ
  logged : List LogEnvelope
  delivered : List LogEnvelope
  dropped : List LogEnvelope
  displaced : List LogEnvelope
  abandoned : List LogEnvelope

namespace Shipping

/-- The process start. -/
def init : Shipping where
  unavailable := false
  channel := []
  backlog := .new (by decide)
  shipper := .receiving
  backoffMs := 100
  logged := []
  delivered := []
  dropped := []
  displaced := []
  abandoned := []

/-- A push to the backlog. -/
def buffer (s : Shipping) (env : LogEnvelope) : Shipping :=
  { s with
    backlog := (s.backlog.push env).2
    displaced := s.displaced ++ (s.backlog.push env).1.toList }

/-- The first section of `handle_envelope`: the flag decides where the record goes. -/
def choose (layer : LokiLayer) (s : Shipping) (env : LogEnvelope) : CallPoint × Shipping :=
  if s.unavailable then
    match env.severity with
    | .high => (.buffering env, s)
    | .low =>
      if layer.dropLowSeverityOnUnavailable then
        (.idle, { s with dropped := s.dropped ++ [env] })
      else (.buffering env, s)
  else if layer.sender then (.sending env, s) else (.buffering env, s)

/-- The later sections: `try_send` may find the channel full, which leaves the backlog. -/
def advance (s : Shipping) : CallPoint → CallPoint × Shipping
  | .idle => (.idle, s)
  | .buffering env => (.idle, s.buffer env)
  | .sending env =>
    if s.channel.length < lokiChannelCapacity then
      (.idle, { s with channel := s.channel ++ [env] })
    else (.buffering env, s)

/-- `handle_envelope` without a turn of another thread in between. -/
def handleEnvelope (layer : LokiLayer) (s : Shipping) (env : LogEnvelope) : Shipping :=
  let (point, s) := s.choose layer env
  let (point, s) := s.advance point
  (s.advance point).2

/-- `on_event` hands the record to the layer. -/
def record (s : Shipping) (env : LogEnvelope) : Shipping := { s with logged := s.logged ++ [env] }

/-- One section of `run_loki_shipper`. `ok` is the answer to the push it waits for, if it waits for
one; `warn` is the warning it logs about a failed one, if the log level lets it through. -/
def ship (layer : LokiLayer) (s : Shipping) (ok : Bool) (warn : Option LogEvent) : Shipping :=
  match s.shipper with
  | .receiving => match s.channel with
    | [] => s
    | env :: channel => { s with channel := channel, shipper := .pushing env }
  | .pushing env =>
    if ok then
      if s.unavailable then
        { s with
          unavailable := false
          delivered := s.delivered ++ [env]
          shipper := .draining }
      else
        { s with
          delivered := s.delivered ++ [env]
          shipper := .receiving
          backoffMs := 100 }
    else
      { s with
        unavailable := true
        backoffMs := min (s.backoffMs * 2) 30000
        shipper := warn.elim (.pushing env) (.warning env) }
  | .warning env warn =>
    -- the shipper logs through the layer it serves
    let own := { warn with level := .warn }.envelope
    { (s.record own).handleEnvelope layer own with shipper := .pushing env }
  | .draining =>
    { s with
      backlog := s.backlog.drain.2
      shipper := .flushing s.backlog.drain.1 }
  | .flushing [] => { s with shipper := .receiving, backoffMs := 100 }
  | .flushing (env :: entries) =>
    if ok then { s with delivered := s.delivered ++ [env], shipper := .flushing entries }
    else
      { s with
        unavailable := true
        abandoned := s.abandoned ++ entries
        shipper := .rebuffering env }
  | .rebuffering env => { s.buffer env with shipper := .receiving, backoffMs := 100 }

end Shipping

/-- The logging threads over the shared state. -/
abbrev Logging := Pool Shipping CallPoint

/-- What happens next: a thread logs, a thread goes on with its call, or the shipper does. -/
inductive LogStep where
  | log (tid : ℕ) (ev : LogEvent)
  | advance (tid : ℕ)
  | ship (ok : Bool) (warn : Option LogEvent)

/-- One section of one thread or of the shipper. A thread that is in a call does not start another. -/
def logStep (layer : LokiLayer) (c : Logging) : LogStep → Unit × Logging
  | .log tid ev => match c.threads tid with
    | .idle =>
      let (point, s) := (c.shared.record ev.envelope).choose layer ev.envelope
      ((), c.goto tid point s)
    | _ => ((), c)
  | .advance tid =>
    let (point, s) := c.shared.advance (c.threads tid)
    ((), c.goto tid point s)
  | .ship ok warn => ((), { c with shared := c.shared.ship layer ok warn })

/-- The process at its start: no thread is in a call. -/
def Logging.init : Logging := ⟨.init, fun _ => .idle⟩

/-- The process after some steps. -/
def Logging.after (layer : LokiLayer) (steps : List LogStep) : Logging :=
  runState (logStep layer) .init steps

end Hedge.Obs
