import Hedge.Core.Types
import Mathlib.Data.List.Sort

/-!
# Active/backup broker router

Reference: `hedge-exec/src/router.rs`.

The adapters themselves are outside the model, so a router holds their ids. The counter
`total_recorded` is not read by the router and is left out.
-/

namespace Hedge.Exec

/-- Outcomes recorded into `AdapterStats`. -/
inductive Outcome where
  | success
  | failure
deriving DecidableEq, Repr

/-- `WINDOW_SIZE`. -/
def windowSize : ℕ := 64

/-- Active adapter slot. -/
inductive ActiveSlot where
  | primary
  | backup
deriving DecidableEq, Repr

/-- The slot that is not active. -/
def ActiveSlot.other : ActiveSlot → ActiveSlot
  | .primary => .backup
  | .backup => .primary

theorem ActiveSlot.ne_other (slot : ActiveSlot) : slot ≠ slot.other := by
  cases slot <;> decide

theorem ActiveSlot.eq_or_eq_other (slot slot' : ActiveSlot) : slot' = slot ∨ slot' = slot.other := by
  cases slot <;> cases slot' <;> decide

/-- Failover-trigger event. -/
structure FailoverEvent where
  source : BrokerId
  target : BrokerId
  errorRateBps : UInt32
  p99LatencyMs : UInt32
  tsNs : UInt64
deriving DecidableEq, Repr

/-- One recorded round trip. -/
structure Sample where
  outcome : Outcome
  latencyMs : UInt32
deriving DecidableEq, Repr

/-- Sliding-window statistics of one adapter. -/
structure AdapterStats where
  capacity : ℕ
  samples : List Sample
  pos : ℕ
deriving DecidableEq, Repr

namespace AdapterStats

/-- Stats with the given fixed window capacity. -/
def withCapacity (capacity : ℕ) : AdapterStats := ⟨max capacity 1, [], 0⟩

/-- Append an outcome; a full window replaces the slot at `pos`. -/
def record (s : AdapterStats) (outcome : Outcome) (latencyMs : UInt32) : AdapterStats :=
  let sample : Sample := ⟨outcome, latencyMs⟩
  if s.samples.length < s.capacity then { s with samples := s.samples ++ [sample] }
  else
    let i := s.pos % s.capacity
    { s with samples := s.samples.set i sample, pos := i + 1 }

/-- The error rate in basis points; `0` for an empty window. -/
def errorRateBps (s : AdapterStats) : UInt32 :=
  if s.samples.isEmpty then 0
  else UInt32.ofNat (s.samples.countP (fun x => x.outcome = .failure) * 10000 / s.samples.length)

/-- Nearest-rank p99 latency over the samples that carry a measurement. -/
def p99LatencyMs (s : AdapterStats) : UInt32 :=
  let latencies := (s.samples.map Sample.latencyMs).filter (fun ms => ms != 4294967295)
  let sorted := latencies.insertionSort (· ≤ ·)
  let n := sorted.length
  -- `ceil(0.99 * n) - 1`
  sorted.getD (min ((99 * n + 99) / 100 - 1) (n - 1)) 0

/-- Number of outcomes held. -/
def windowLen (s : AdapterStats) : ℕ := s.samples.length

/-- Drain the window. -/
def reset (s : AdapterStats) : AdapterStats := { s with samples := [], pos := 0 }

end AdapterStats

/-- Per-router thresholds. -/
structure FailoverThresholds where
  errorRateBps : UInt32
  p99LatencyMs : UInt32
  minSamples : UInt32
deriving DecidableEq, Repr

/-- `BrokerRouter`. -/
structure BrokerRouter where
  primaryId : BrokerId
  backupId : BrokerId
  active : ActiveSlot
  primaryStats : AdapterStats
  backupStats : AdapterStats
  thresholds : FailoverThresholds
deriving DecidableEq, Repr

namespace BrokerRouter

/-- A router with the primary active. -/
def new (primaryId backupId : BrokerId) (thresholds : FailoverThresholds) : BrokerRouter where
  primaryId := primaryId
  backupId := backupId
  active := .primary
  primaryStats := .withCapacity windowSize
  backupStats := .withCapacity windowSize
  thresholds := thresholds

/-- The broker in a slot. -/
def idOf (r : BrokerRouter) : ActiveSlot → BrokerId
  | .primary => r.primaryId
  | .backup => r.backupId

/-- `active_id`. -/
def activeId (r : BrokerRouter) : BrokerId := r.idOf r.active

/-- The statistics of a slot. -/
def statsOf (r : BrokerRouter) : ActiveSlot → AdapterStats
  | .primary => r.primaryStats
  | .backup => r.backupStats

/-- Replace the statistics of a slot. -/
def setStats (r : BrokerRouter) : ActiveSlot → AdapterStats → BrokerRouter
  | .primary, s => { r with primaryStats := s }
  | .backup, s => { r with backupStats := s }

/-- `pick_for_intent`: a hint that names a configured broker also makes it active. -/
def pickForIntent (r : BrokerRouter) (hint : Option BrokerId) : ActiveSlot × BrokerRouter :=
  match hint with
  | some target =>
    if target = r.primaryId then (.primary, { r with active := .primary })
    else if target = r.backupId then (.backup, { r with active := .backup })
    else (r.active, r)
  | none => (r.active, r)

/-- Record an outcome against the active adapter and run failover detection. -/
def recordOutcome (r : BrokerRouter) (outcome : Outcome) (latencyMs : UInt32) (tsNs : UInt64) :
    Option FailoverEvent × BrokerRouter :=
  let slot := r.active
  let stats := (r.statsOf slot).record outcome latencyMs
  let r := r.setStats slot stats
  if UInt32.ofNat stats.windowLen < r.thresholds.minSamples then (none, r)
  else
    let er := stats.errorRateBps
    let p99 := stats.p99LatencyMs
    if !(r.thresholds.errorRateBps ≤ er || r.thresholds.p99LatencyMs ≤ p99) then (none, r)
    else
      -- the new active slot starts with a fresh window
      let swapped := { r with active := slot.other }
      let swapped := swapped.setStats slot.other (swapped.statsOf slot.other).reset
      (some ⟨r.idOf slot, r.idOf slot.other, er, p99, tsNs⟩, swapped)

/-- `force_primary`. -/
def forcePrimary (r : BrokerRouter) : BrokerRouter := { r with active := .primary }

/-! ## What recording an outcome does -/

@[simp] theorem active_setStats (r : BrokerRouter) (slot : ActiveSlot) (stats : AdapterStats) :
    (r.setStats slot stats).active = r.active := by
  cases slot <;> rfl

@[simp] theorem thresholds_setStats (r : BrokerRouter) (slot : ActiveSlot) (stats : AdapterStats) :
    (r.setStats slot stats).thresholds = r.thresholds := by
  cases slot <;> rfl

@[simp] theorem idOf_setStats (r : BrokerRouter) (slot : ActiveSlot) (stats : AdapterStats) :
    (r.setStats slot stats).idOf = r.idOf := by
  funext slot'
  cases slot <;> cases slot' <;> rfl

@[simp] theorem statsOf_setStats (r : BrokerRouter) (slot : ActiveSlot) (stats : AdapterStats) :
    (r.setStats slot stats).statsOf slot = stats := by
  cases slot <;> rfl

@[simp] theorem statsOf_setStats_other (r : BrokerRouter) (slot : ActiveSlot)
    (stats : AdapterStats) : (r.setStats slot stats).statsOf slot.other = r.statsOf slot.other := by
  cases slot <;> rfl

/-- The window makes the router switch. -/
def breaches (r : BrokerRouter) (stats : AdapterStats) : Bool :=
  !decide (UInt32.ofNat stats.windowLen < r.thresholds.minSamples) &&
    (decide (r.thresholds.errorRateBps ≤ stats.errorRateBps) ||
      decide (r.thresholds.p99LatencyMs ≤ stats.p99LatencyMs))

/-- The other slot is made active, with a fresh window. -/
def switched (r : BrokerRouter) : BrokerRouter :=
  let swapped := { r with active := r.active.other }
  swapped.setStats r.active.other (swapped.statsOf r.active.other).reset

theorem active_switched (r : BrokerRouter) : r.switched.active = r.active.other := by
  unfold switched
  rw [active_setStats]

theorem idOf_switched (r : BrokerRouter) : r.switched.idOf = r.idOf := by
  unfold switched
  rw [idOf_setStats]
  rfl

/-- The slot that was active keeps its window. -/
theorem statsOf_switched (r : BrokerRouter) : r.switched.statsOf r.active = r.statsOf r.active := by
  obtain ⟨primaryId, backupId, active, primaryStats, backupStats, thresholds⟩ := r
  cases active <;> rfl

/-- The slot that becomes active starts with an empty window. -/
theorem statsOf_switched_other (r : BrokerRouter) :
    r.switched.statsOf r.active.other = (r.statsOf r.active.other).reset := by
  obtain ⟨primaryId, backupId, active, primaryStats, backupStats, thresholds⟩ := r
  cases active <;> rfl

/-- Picking an adapter makes its slot active and does nothing else. -/
theorem pickForIntent_snd (r : BrokerRouter) (hint : Option BrokerId) :
    (r.pickForIntent hint).2 = { r with active := (r.pickForIntent hint).1 } := by
  unfold pickForIntent
  split
  · split_ifs <;> rfl
  · rfl

section Record

variable {r : BrokerRouter} {outcome : Outcome} {latencyMs : UInt32}

/-- Without a breach the outcome is only noted, in the window of the active slot. -/
theorem recordOutcome_of_not_breaches
    (h : r.breaches ((r.statsOf r.active).record outcome latencyMs) = false) (tsNs : UInt64) :
    r.recordOutcome outcome latencyMs tsNs
      = (none, r.setStats r.active ((r.statsOf r.active).record outcome latencyMs)) := by
  unfold breaches at h
  unfold recordOutcome
  dsimp only
  rw [thresholds_setStats]
  rcases Bool.and_eq_false_iff.mp h with hfew | hgood
  · rw [if_pos (by simpa using hfew)]
  · rw [hgood]
    split <;> rfl

/-- With a breach the router switches and reports it. -/
theorem recordOutcome_of_breaches
    (h : r.breaches ((r.statsOf r.active).record outcome latencyMs) = true) (tsNs : UInt64) :
    r.recordOutcome outcome latencyMs tsNs
      = (some ⟨r.idOf r.active, r.idOf r.active.other,
          ((r.statsOf r.active).record outcome latencyMs).errorRateBps,
          ((r.statsOf r.active).record outcome latencyMs).p99LatencyMs, tsNs⟩,
        (r.setStats r.active ((r.statsOf r.active).record outcome latencyMs)).switched) := by
  obtain ⟨henough, hbad⟩ := Bool.and_eq_true_iff.mp h
  unfold recordOutcome switched
  dsimp only
  rw [thresholds_setStats, idOf_setStats, active_setStats, if_neg (by simpa using henough), hbad]
  rfl

/-- The slots keep their brokers. -/
theorem idOf_recordOutcome (r : BrokerRouter) (outcome : Outcome) (latencyMs : UInt32)
    (tsNs : UInt64) : (r.recordOutcome outcome latencyMs tsNs).2.idOf = r.idOf := by
  cases h : r.breaches ((r.statsOf r.active).record outcome latencyMs) with
  | false => rw [recordOutcome_of_not_breaches h, idOf_setStats]
  | true => rw [recordOutcome_of_breaches h, idOf_switched, idOf_setStats]

/-- The outcome goes into the window of the slot that is active. -/
theorem statsOf_recordOutcome (r : BrokerRouter) (outcome : Outcome) (latencyMs : UInt32)
    (tsNs : UInt64) :
    (r.recordOutcome outcome latencyMs tsNs).2.statsOf r.active
      = (r.statsOf r.active).record outcome latencyMs := by
  cases h : r.breaches ((r.statsOf r.active).record outcome latencyMs) with
  | false => rw [recordOutcome_of_not_breaches h, statsOf_setStats]
  | true =>
    have hkept := statsOf_switched
      (r.setStats r.active ((r.statsOf r.active).record outcome latencyMs))
    rw [active_setStats, statsOf_setStats] at hkept
    rw [recordOutcome_of_breaches h, hkept]

end Record

end BrokerRouter

end Hedge.Exec
