import Hedge.Pipeline.FeatureWire
import Hedge.Signals.Engine

/-!
# Publishing the signals of a snapshot

Reference: `hedge-signals/src/engine.rs` (`SignalEngine::publish`, `ingest_feature_snapshot`),
`hedge-signals/src/bin/main.rs`.

Each signal goes out on NATS and, if a producer is wired, on the Redis stream. A call of `publish`
returns with the first of its two operations that fails, and the loop over the signals returns with
it. Whether an operation succeeds is an argument, by the place of the signal and by channel; the log
lists the operations that were tried.
-/

namespace Hedge.Signals

open Hedge Hedge.Common Hedge.Pipeline

/-! ## Model -/

/-- `sig.emitted` on NATS, `hedge.hot.signals` on Redis. -/
inductive Channel where
  | nats
  | redis
deriving DecidableEq

/-- An operation that was tried. -/
structure Attempt where
  channel : Channel
  signal : Signal
  ok : Bool

/-- `SignalEngine`; of the Redis producer only whether it is wired. -/
structure SignalEngine where
  strategies : List Strategy
  config : SignalEngineConfig
  previousDay : Map SymbolId PreviousDayMemory
  redisStream : Bool

namespace SignalEngine

/-- `evaluate`. -/
def evaluate (engine : SignalEngine) (snap : FeatureSnapshot) : List Signal :=
  evaluateStrategies engine.strategies snap engine.config (engine.previousDay.lookup ⟨snap.symbol⟩)

/-- `publish`; the error is that of the channel that failed. -/
def publish (engine : SignalEngine) (ok : Channel → Bool) (signal : Signal) :
    List Attempt × Except Channel Unit :=
  if !ok .nats then ([⟨.nats, signal, false⟩], .error .nats)
  else if engine.redisStream then
    if !ok .redis then ([⟨.nats, signal, true⟩, ⟨.redis, signal, false⟩], .error .redis)
    else ([⟨.nats, signal, true⟩, ⟨.redis, signal, true⟩], .ok ())
  else ([⟨.nats, signal, true⟩], .ok ())

/-- The loop of `ingest_feature_snapshot`. -/
def publishAll (engine : SignalEngine) :
    (ℕ → Channel → Bool) → List Signal → List Attempt × Except Channel Unit
  | _, [] => ([], .ok ())
  | ok, signal :: signals =>
    match engine.publish (ok 0) signal with
    | (log, .error channel) => (log, .error channel)
    | (log, .ok ()) =>
      let rest := engine.publishAll (fun i => ok (i + 1)) signals
      (log ++ rest.1, rest.2)

/-- `ingest_feature_snapshot`. -/
def ingestFeatureSnapshot (engine : SignalEngine) (ok : ℕ → Channel → Bool)
    (snap : FeatureSnapshot) : List Attempt × Except Channel ℕ :=
  let signals := engine.evaluate snap
  let out := engine.publishAll ok signals
  (out.1, out.2.map fun _ => signals.length)

/-- What the service tries on a payload of `feat.update.*`; its result is logged and dropped. -/
def receive (engine : SignalEngine) (ok : ℕ → Channel → Bool) (bytes : List UInt8) : List Attempt :=
  match decodeFeatureSnapshot bytes with
  | none => []
  | some snap => (engine.ingestFeatureSnapshot ok snap.values).1

theorem receive_encode (engine : SignalEngine) (ok : ℕ → Channel → Bool) (snap : FeatureBits) :
    engine.receive ok (encode snap) = (engine.ingestFeatureSnapshot ok snap.values).1 := by
  rw [receive, decodeFeatureSnapshot_encode]

/-- The channels of an engine, in the order in which they are tried. -/
def channels (engine : SignalEngine) : List Channel :=
  if engine.redisStream then [.nats, .redis] else [.nats]

end SignalEngine

/-- The signals tried on a channel. -/
def attempted (channel : Channel) (log : List Attempt) : List Signal :=
  (log.filter fun a => a.channel = channel).map Attempt.signal

/-- The signals delivered on a channel. -/
def deliveredOn (channel : Channel) (log : List Attempt) : List Signal :=
  (log.filter fun a => a.channel = channel && a.ok).map Attempt.signal

/-- The signals whose own operation succeeds. -/
def succeeding : (ℕ → Bool) → List Signal → List Signal
  | _, [] => []
  | ok, signal :: signals =>
    (if ok 0 then [signal] else []) ++ succeeding (fun i => ok (i + 1)) signals

@[simp] theorem attempted_append (channel : Channel) (log₁ log₂ : List Attempt) :
    attempted channel (log₁ ++ log₂) = attempted channel log₁ ++ attempted channel log₂ := by
  simp [attempted]

@[simp] theorem deliveredOn_append (channel : Channel) (log₁ log₂ : List Attempt) :
    deliveredOn channel (log₁ ++ log₂) = deliveredOn channel log₁ ++ deliveredOn channel log₂ := by
  simp [deliveredOn]

/-! ## When every signal is tried -/

/-- No operation fails but the last one of all. -/
def OnlyLastFails (channels : List Channel) (ok : ℕ → Channel → Bool) (n : ℕ) : Prop :=
  ∀ i < n, ∀ c ∈ channels, ok i c = false → i + 1 = n ∧ channels.getLast? = some c

theorem onlyLastFails_succ {channels : List Channel} {ok : ℕ → Channel → Bool} {n : ℕ} :
    OnlyLastFails channels ok (n + 1) ↔
      (∀ c ∈ channels, ok 0 c = false → n = 0 ∧ channels.getLast? = some c) ∧
        OnlyLastFails channels (fun i => ok (i + 1)) n := by
  constructor
  · intro h
    refine ⟨fun c hc hfail => ?_, fun i hi c hc hfail => ?_⟩
    · obtain ⟨hlast, hchannel⟩ := h 0 (Nat.succ_pos n) c hc hfail
      exact ⟨by omega, hchannel⟩
    · obtain ⟨hlast, hchannel⟩ := h (i + 1) (Nat.succ_lt_succ hi) c hc hfail
      exact ⟨by omega, hchannel⟩
  · rintro ⟨hfirst, hrest⟩ i hi c hc hfail
    cases i with
    | zero =>
      obtain ⟨hlast, hchannel⟩ := hfirst c hc hfail
      exact ⟨by omega, hchannel⟩
    | succ i =>
      obtain ⟨hlast, hchannel⟩ := hrest i (Nat.lt_of_succ_lt_succ hi) c hc hfail
      exact ⟨by omega, hchannel⟩

namespace SignalEngine

/-- Each signal is tried on each channel, and those delivered are those whose own operation
succeeds. -/
def PublishesAll (engine : SignalEngine) (ok : ℕ → Channel → Bool) (signals : List Signal)
    (log : List Attempt) : Prop :=
  ∀ c ∈ engine.channels,
    attempted c log = signals ∧ deliveredOn c log = succeeding (fun i => ok i c) signals

/-- A signal is tried on all channels unless an operation before the last one fails. -/
theorem publish_cases (engine : SignalEngine) (ok : Channel → Bool) (signal : Signal) :
    (∃ log, engine.publish ok signal = (log, .ok ()) ∧ (∀ c ∈ engine.channels, ok c = true) ∧
        ∀ c ∈ engine.channels, attempted c log = [signal] ∧ deliveredOn c log = [signal]) ∨
      (∃ log last, engine.publish ok signal = (log, .error last) ∧ ok last = false ∧
        engine.channels.getLast? = some last ∧
        (∀ c ∈ engine.channels, c ≠ last → ok c = true) ∧
        ∀ c ∈ engine.channels, attempted c log = [signal] ∧
          deliveredOn c log = if ok c then [signal] else []) ∨
      (∃ log failed skipped, engine.publish ok signal = (log, .error failed) ∧ ok failed = false ∧
        failed ∈ engine.channels ∧ engine.channels.getLast? ≠ some failed ∧
        skipped ∈ engine.channels ∧ attempted skipped log = []) := by
  unfold publish channels
  cases hnats : ok .nats <;> cases hwired : engine.redisStream <;> cases hredis : ok .redis <;>
    simp [attempted, deliveredOn, hnats, hredis]

section Loop

variable {engine : SignalEngine} {ok : ℕ → Channel → Bool} {signal : Signal} {signals : List Signal}
  {log : List Attempt}

theorem publishAll_cons_of_ok (h : engine.publish (ok 0) signal = (log, .ok ())) :
    (engine.publishAll ok (signal :: signals)).1 =
      log ++ (engine.publishAll (fun i => ok (i + 1)) signals).1 := by
  rw [publishAll, h]

theorem publishAll_cons_of_error {failed : Channel}
    (h : engine.publish (ok 0) signal = (log, .error failed)) :
    (engine.publishAll ok (signal :: signals)).1 = log := by
  rw [publishAll, h]

/-- After a signal that is published the loop goes on. -/
theorem publishesAll_cons_of_ok (h : engine.publish (ok 0) signal = (log, .ok ()))
    (hok : ∀ c ∈ engine.channels, ok 0 c = true)
    (hlog : ∀ c ∈ engine.channels, attempted c log = [signal] ∧ deliveredOn c log = [signal]) :
    engine.PublishesAll ok (signal :: signals) (engine.publishAll ok (signal :: signals)).1 ↔
      engine.PublishesAll (fun i => ok (i + 1)) signals
        (engine.publishAll (fun i => ok (i + 1)) signals).1 := by
  rw [publishAll_cons_of_ok h]
  refine forall_congr' fun c => forall_congr' fun hc => ?_
  obtain ⟨hattempted, hdelivered⟩ := hlog c hc
  rw [attempted_append, deliveredOn_append, hattempted, hdelivered, succeeding, hok c hc, if_pos rfl,
    List.singleton_append, List.singleton_append, List.singleton_append, List.cons_inj_right,
    List.cons_inj_right]

/-- After a signal whose last operation fails no signal may follow. -/
theorem publishesAll_cons_of_last {last : Channel}
    (h : engine.publish (ok 0) signal = (log, .error last))
    (hlast : engine.channels.getLast? = some last)
    (hlog : ∀ c ∈ engine.channels, attempted c log = [signal] ∧
      deliveredOn c log = if ok 0 c then [signal] else []) :
    engine.PublishesAll ok (signal :: signals) (engine.publishAll ok (signal :: signals)).1 ↔
      signals = [] := by
  rw [publishAll_cons_of_error h]
  cases signals with
  | nil =>
    refine iff_of_true (fun c hc => ?_) rfl
    obtain ⟨hattempted, hdelivered⟩ := hlog c hc
    refine ⟨hattempted, hdelivered.trans ?_⟩
    rw [succeeding, succeeding, List.append_nil]
  | cons next signals =>
    refine iff_of_false (fun hall => ?_) (List.cons_ne_nil _ _)
    have hmem : last ∈ engine.channels := List.mem_of_getLast? hlast
    have htried := (hall last hmem).1
    rw [(hlog last hmem).1] at htried
    cases htried

/-- A channel on which the signal was not tried misses it. -/
theorem not_publishesAll_of_skipped {failed skipped : Channel}
    (h : engine.publish (ok 0) signal = (log, .error failed)) (hskipped : skipped ∈ engine.channels)
    (hlog : attempted skipped log = []) :
    ¬ engine.PublishesAll ok (signal :: signals) (engine.publishAll ok (signal :: signals)).1 := by
  rw [publishAll_cons_of_error h]
  intro hall
  have htried := (hall skipped hskipped).1
  rw [hlog] at htried
  cases htried

end Loop

theorem publishesAll_iff (engine : SignalEngine) (ok : ℕ → Channel → Bool) (signals : List Signal) :
    engine.PublishesAll ok signals (engine.publishAll ok signals).1 ↔
      OnlyLastFails engine.channels ok signals.length := by
  induction signals generalizing ok with
  | nil =>
    refine iff_of_true (fun c _ => ⟨rfl, rfl⟩) fun i hi => ?_
    exact absurd hi (Nat.not_lt_zero i)
  | cons signal signals ih =>
    rw [List.length_cons, onlyLastFails_succ, ← ih]
    rcases engine.publish_cases (ok 0) signal with ⟨log, hpublish, hok, hlog⟩ |
      ⟨log, last, hpublish, hfail, hlast, hok, hlog⟩ |
      ⟨log, failed, skipped, hpublish, hfail, hfailed, hnotLast, hskipped, hlog⟩
    · rw [publishesAll_cons_of_ok hpublish hok hlog]
      refine (and_iff_right fun c hc hfail => ?_).symm
      rw [hok c hc] at hfail
      cases hfail
    · rw [publishesAll_cons_of_last hpublish hlast hlog]
      constructor
      · rintro rfl
        refine ⟨fun c hc hfail' => ⟨rfl, ?_⟩, fun c _ => ⟨rfl, rfl⟩⟩
        by_cases hc' : c = last
        · rw [hc', hlast]
        · rw [hok c hc hc'] at hfail'
          cases hfail'
      · intro h
        exact List.eq_nil_of_length_eq_zero (h.1 last (List.mem_of_getLast? hlast) hfail).1
    · refine iff_of_false (not_publishesAll_of_skipped hpublish hskipped hlog) fun h => ?_
      exact hnotLast (h.1 failed hfailed hfail).2

/-- Every signal of a snapshot is tried on every channel, so that exactly those are delivered whose
own operation succeeds, if and only if no operation fails but the last one of all. -/
theorem ingestFeatureSnapshot_publishesAll_iff (engine : SignalEngine) (ok : ℕ → Channel → Bool)
    (snap : FeatureSnapshot) :
    engine.PublishesAll ok (engine.evaluate snap) (engine.ingestFeatureSnapshot ok snap).1 ↔
      OnlyLastFails engine.channels ok (engine.evaluate snap).length :=
  engine.publishesAll_iff ok (engine.evaluate snap)

/-- Two strategies that buy, with a Redis producer. -/
def twoBuyers : SignalEngine where
  strategies := [alwaysBuy, { alwaysBuy with id := .vwapPullback }]
  config := .default
  previousDay := ∅
  redisStream := true

/-- The first publish on NATS fails. -/
def firstPublishFails (i : ℕ) (channel : Channel) : Bool := !(i == 0 && channel = .nats)

/-- One failed publish: the second signal succeeds on both channels and the first on Redis, yet none
is delivered. -/
theorem not_publishesAll_twoBuyers :
    (twoBuyers.evaluate flatSnapshot).length = 2
      ∧ (deliveredOn .nats
          (twoBuyers.ingestFeatureSnapshot firstPublishFails flatSnapshot).1).length = 0
      ∧ (deliveredOn .redis
          (twoBuyers.ingestFeatureSnapshot firstPublishFails flatSnapshot).1).length = 0
      ∧ ¬ twoBuyers.PublishesAll firstPublishFails (twoBuyers.evaluate flatSnapshot)
        (twoBuyers.ingestFeatureSnapshot firstPublishFails flatSnapshot).1 := by
  have hsignals : (twoBuyers.evaluate flatSnapshot).length = 2 := by decide
  have htried : (attempted .redis
      (twoBuyers.ingestFeatureSnapshot firstPublishFails flatSnapshot).1).length = 0 := by decide
  refine ⟨hsignals, by decide, by decide, fun h => ?_⟩
  have hall := congrArg List.length (h .redis (by decide)).1
  omega

end SignalEngine

end Hedge.Signals
