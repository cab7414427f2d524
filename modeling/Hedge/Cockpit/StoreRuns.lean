import Hedge.Cockpit.Store
import Hedge.Common.Recency

/-!
# What the store keeps

Reference: `cap`, `uniqLeft` and the reducers of `ui/src/store/cockpitStore.ts`.

Whatever frames and actions the store gets, its histories stay within their bounds. The list of
signals is a set of correlation ids in the order of their last use: it shows the 100 ids that were
taken last, each with the last signal taken for it. The table by correlation id is not bounded.
-/

namespace Hedge.Cockpit

open Hedge Hedge.Common Hedge.Gateway

/-! ## Helpers of the reducers -/

theorem length_cap_le {α : Type*} (xs : List α) (n : ℕ) : (cap xs n).length ≤ n := by
  rw [cap]
  split_ifs with h
  · rw [List.length_take]
    exact Nat.min_le_left ..
  · exact Nat.not_lt.mp h

/-- `cap` keeps the front. -/
theorem cap_eq_take {α : Type*} (xs : List α) (n : ℕ) : cap xs n = xs.take n := by
  rw [cap]
  split_ifs with h
  · rfl
  · rw [List.take_of_length_le (Nat.not_lt.mp h)]

theorem length_uniqLeftFrom_le {capN : ℕ} (xs out : List Json) (h : out.length < capN) :
    (uniqLeftFrom capN out xs).length ≤ capN := by
  induction xs generalizing out with
  | nil => exact h.le
  | cons s rest ih =>
    rw [uniqLeftFrom]
    split_ifs with hmem hfull
    · exact ih out h
    · rw [List.length_append, List.length_singleton]
      exact h
    · exact ih _ (Nat.not_le.mp hfull)

theorem length_uniqLeft_le {existing unique : List Json} {incoming : Option Json} {capN : ℕ}
    (hcap : 0 < capN) (h : uniqLeft existing incoming capN = some unique) :
    unique.length ≤ capN := by
  obtain ⟨elems, _, rfl⟩ := Option.map_eq_some_iff.mp h
  exact length_uniqLeftFrom_le _ [] hcap

/-! ## Bounds -/

/-- The histories of the store are within their bounds. -/
structure CockpitState.Bounded (s : CockpitState) : Prop where
  signals : s.signals.recent.length ≤ maxAiExplanations
  decisions : s.risk.decisions.length ≤ maxRiskDecisions
  orders : s.exec.recent.length ≤ maxExecOrders
  failovers : s.exec.failovers.length ≤ 50
  news : s.news.recent.length ≤ maxNews
  behaviors : s.psych.recentBehaviors.length ≤ maxBehaviors
  interventions : s.psych.interventions.length ≤ 50
  alerts : s.alerts.length ≤ maxAlerts
  frames : s.replay.recentFrames.length ≤ maxReplayFrames
  records : s.latency.records.length ≤ 500

theorem length_sortAlerts_le (xs : List Alert) : (sortAlerts xs).length ≤ maxAlerts := by
  rw [sortAlerts, List.length_take]
  exact Nat.min_le_left ..

theorem length_recent_reduceSignals {prev : SignalsSlice} (sig : RankedSignal)
    (warMode : WarModeStatus) (h : prev.recent.length ≤ maxAiExplanations) :
    (reduceSignals prev sig warMode).recent.length ≤ maxAiExplanations := by
  rw [reduceSignals]
  split_ifs
  · exact length_cap_le ..
  · exact h

theorem length_recent_reduceSignalsChannel (platform : Platform) {prev : SignalsSlice}
    (envelope : ServerEnvelope) (warMode : WarModeStatus)
    (h : prev.recent.length ≤ maxAiExplanations) :
    (reduceSignalsChannel platform prev envelope warMode).recent.length ≤ maxAiExplanations := by
  rw [reduceSignalsChannel]
  split_ifs
  · split <;> exact h
  · split
    · exact length_recent_reduceSignals _ _ h
    · exact h

theorem length_decisions_reduceRisk (platform : Platform) {prev next : RiskSlice} {ev : Json}
    (hnext : reduceRisk platform prev ev = some next)
    (h : prev.decisions.length ≤ maxRiskDecisions) : next.decisions.length ≤ maxRiskDecisions := by
  simp only [reduceRisk, Option.bind_eq_bind, Option.bind_eq_some_iff] at hnext
  obtain ⟨kind, _, hnext⟩ := hnext
  split at hnext
  all_goals
    simp only [Option.bind_eq_some_iff, Option.pure_def, Option.some.injEq] at hnext
  · rw [← hnext]
    exact length_cap_le ..
  · obtain ⟨_, _, _, _, _, _, rfl⟩ := hnext
    exact h
  · obtain ⟨_, _, _, _, rfl⟩ := hnext
    exact h
  · rw [← hnext]
    exact h
  · obtain ⟨_, _, rfl⟩ := hnext
    exact h
  · rw [← hnext]
    exact h
  · rw [← hnext]
    exact h

theorem length_lists_reduceExec (platform : Platform) {prev next : ExecSlice} {ev : Json}
    (hnext : reduceExec platform prev ev = some next) (hrecent : prev.recent.length ≤ maxExecOrders)
    (hfailovers : prev.failovers.length ≤ 50) :
    next.recent.length ≤ maxExecOrders ∧ next.failovers.length ≤ 50 := by
  simp only [reduceExec, Option.bind_eq_bind, Option.bind_eq_some_iff] at hnext
  obtain ⟨kind, _, hnext⟩ := hnext
  split at hnext
  all_goals
    simp only [Option.bind_eq_some_iff, Option.pure_def, Option.some.injEq] at hnext
  · obtain ⟨_, _, rfl⟩ := hnext
    exact ⟨length_cap_le .., hfailovers⟩
  · obtain ⟨_, _, rfl⟩ := hnext
    exact ⟨length_cap_le .., hfailovers⟩
  · rw [← hnext]
    exact ⟨length_cap_le .., length_cap_le ..⟩
  · rw [← hnext]
    exact ⟨length_cap_le .., hfailovers⟩
  · rw [← hnext]
    exact ⟨hrecent, hfailovers⟩

theorem length_lists_reducePsych {prev next : PsychSlice} {ev : Json}
    (hnext : reducePsych prev ev = some next)
    (hbehaviors : prev.recentBehaviors.length ≤ maxBehaviors)
    (hinterventions : prev.interventions.length ≤ 50) :
    next.recentBehaviors.length ≤ maxBehaviors ∧ next.interventions.length ≤ 50 := by
  simp only [reducePsych, Option.bind_eq_bind, Option.bind_eq_some_iff] at hnext
  obtain ⟨kind, _, hnext⟩ := hnext
  split at hnext
  all_goals
    simp only [Option.bind_eq_some_iff, Option.pure_def, Option.some.injEq] at hnext
  · obtain ⟨_, _, _, hunique, rfl⟩ := hnext
    exact ⟨length_uniqLeft_le (by decide) hunique, hinterventions⟩
  · rw [← hnext]
    exact ⟨hbehaviors, length_cap_le ..⟩

theorem length_recentFrames_reduceReplay {prev next : ReplaySlice} {ev : Json}
    (hnext : reduceReplay prev ev = some next)
    (h : prev.recentFrames.length ≤ maxReplayFrames) :
    next.recentFrames.length ≤ maxReplayFrames := by
  simp only [reduceReplay, Option.bind_eq_bind, Option.bind_eq_some_iff] at hnext
  obtain ⟨kind, _, hnext⟩ := hnext
  split at hnext
  all_goals
    simp only [Option.bind_eq_some_iff, Option.pure_def, Option.some.injEq] at hnext
  · rw [← hnext]
    exact h
  · obtain ⟨_, _, rfl⟩ := hnext
    exact h
  · rw [← hnext]
    exact length_cap_le ..
  · rw [← hnext]
    exact h

theorem length_records_reduceLatency (platform : Platform) {prev next : LatencySlice} {ev : Json}
    (hnext : reduceLatency platform prev ev = some next) (h : prev.records.length ≤ 500) :
    next.records.length ≤ 500 := by
  simp only [reduceLatency, Option.bind_eq_bind, Option.bind_eq_some_iff] at hnext
  obtain ⟨kind, _, hnext⟩ := hnext
  split at hnext
  all_goals
    simp only [Option.bind_eq_some_iff, Option.pure_def, Option.some.injEq] at hnext
  · rw [← hnext]
    exact length_cap_le ..
  · obtain ⟨_, _, rfl⟩ := hnext
    exact h

namespace CockpitState

theorem bounded_initial (nowMs : ℤ) : (initial nowMs).Bounded := by
  constructor <;> exact Nat.zero_le _

theorem Bounded.reduce {platform : Platform} {env : StoreEnv} {s next : CockpitState}
    {envelope : ServerEnvelope} (h : s.Bounded)
    (hnext : reduce platform env s envelope = some next) : next.Bounded := by
  rw [CockpitState.reduce] at hnext
  cases hchannel : envelope.channel with
  | market =>
    rw [hchannel] at hnext
    cases hnext
    exact { h with }
  | orderflow =>
    rw [hchannel] at hnext
    obtain ⟨slice, _, rfl⟩ := Option.map_eq_some_iff.mp hnext
    exact { h with }
  | signals =>
    rw [hchannel] at hnext
    cases hnext
    exact { h with signals := length_recent_reduceSignalsChannel _ _ _ h.signals }
  | risk =>
    rw [hchannel] at hnext
    obtain ⟨slice, hslice, rfl⟩ := Option.map_eq_some_iff.mp hnext
    exact { h with decisions := length_decisions_reduceRisk _ hslice h.decisions }
  | exec =>
    rw [hchannel] at hnext
    obtain ⟨slice, hslice, rfl⟩ := Option.map_eq_some_iff.mp hnext
    obtain ⟨horders, hfailovers⟩ := length_lists_reduceExec _ hslice h.orders h.failovers
    exact { h with orders := horders, failovers := hfailovers }
  | news =>
    rw [hchannel] at hnext
    cases hnext
    exact { h with news := length_cap_le .. }
  | psych =>
    rw [hchannel] at hnext
    obtain ⟨slice, hslice, rfl⟩ := Option.map_eq_some_iff.mp hnext
    obtain ⟨hbehaviors, hinterventions⟩ :=
      length_lists_reducePsych hslice h.behaviors h.interventions
    exact { h with behaviors := hbehaviors, interventions := hinterventions }
  | alerts =>
    rw [hchannel] at hnext
    cases hnext
    refine { h with alerts := ?_ }
    rw [Cockpit.applyEnvelope, if_pos hchannel]
    split
    · exact length_sortAlerts_le _
    · exact h.alerts
  | replay =>
    rw [hchannel] at hnext
    obtain ⟨slice, hslice, rfl⟩ := Option.map_eq_some_iff.mp hnext
    exact { h with frames := length_recentFrames_reduceReplay hslice h.frames }
  | latency =>
    rw [hchannel] at hnext
    obtain ⟨slice, hslice, rfl⟩ := Option.map_eq_some_iff.mp hnext
    exact { h with records := length_records_reduceLatency _ hslice h.records }
  | control =>
    rw [hchannel] at hnext
    cases hnext
    exact h

theorem Bounded.step {platform : Platform} {s : CockpitState} (h : s.Bounded)
    (action : StoreAction) : (step platform s action).2.Bounded := by
  cases action with
  | applyEnvelope env envelope nowMs =>
    change ((s.applyEnvelope platform env envelope nowMs).getD s).Bounded
    rw [CockpitState.applyEnvelope]
    cases hreduce : CockpitState.reduce platform env s envelope with
    | none => exact h
    | some next =>
      have hnext := h.reduce hreduce
      exact { hnext with }
  | pushAlert alert => exact { h with alerts := length_sortAlerts_le _ }
  | recomputeFeedStatus nowMs laterMs =>
    rw [CockpitState.step]
    split_ifs
    · exact h
    · exact { h with }
  | reset nowMs => exact bounded_initial nowMs
  | _ => exact { h with }

/-- **Every history of the store is bounded in every state it reaches**, whatever it is sent. -/
theorem bounded_after (platform : Platform) (startMs : ℤ) (actions : List StoreAction) :
    (after platform startMs actions).Bounded :=
  runState_invariant_all (step platform) Bounded (fun _ action h => Bounded.step h action)
    (bounded_initial startMs) actions

end CockpitState

/-! ## Signals -/

/-- The signal that an action makes the store take. -/
def CockpitState.takenSignal (s : CockpitState) : StoreAction → Option RankedSignal
  | .applyEnvelope _ envelope _ =>
    if envelope.channel = .signals ∧ isPriorityChange envelope = false then
      (flattenSignalPayload envelope.payload).filter fun sig => sig.isTaken s.warMode
    else none
  | _ => none

/-- What an action means for the log of taken signals. -/
def CockpitState.signalCalls (s : CockpitState) (action : StoreAction) :
    List (LogCall RankedSignal) :=
  match action with
  | .reset _ => [.clear]
  | action => (s.takenSignal action).toList.map LogCall.append

/-- The signals taken since the last reset, oldest first. -/
def CockpitState.signalLog (platform : Platform) (startMs : ℤ) (actions : List StoreAction) :
    List RankedSignal :=
  LogCall.since (runOutputs (fun s action => (signalCalls s action, (step platform s action).2))
    (initial startMs) actions).flatten

/-- The last signal taken for an id. -/
def lastVersion (log : List RankedSignal) (id : String) : Option RankedSignal :=
  log.reverse.find? fun sig => sig.correlationId = id

/-- The slice shows a log of signals. -/
structure SignalsSlice.Shows (slice : SignalsSlice) (log : List RankedSignal) : Prop where
  ids : (slice.recent.map RankedSignal.correlationId).reverse
    = lastN maxAiExplanations (log.map RankedSignal.correlationId).dedup
  versions : ∀ sig ∈ slice.recent, lastVersion log sig.correlationId = some sig
  table : ∀ id, slice.byCorrelation.lookup id = lastVersion log id

theorem lastVersion_concat (log : List RankedSignal) (sig : RankedSignal) (id : String) :
    lastVersion (log ++ [sig]) id
      = if id = sig.correlationId then some sig else lastVersion log id :=
  find?_reverse_concat RankedSignal.correlationId log sig id

/-- Putting an id in front and cutting the list uses it in the set of the last ids. -/
theorem ids_take_cons {recent : List RankedSignal} (sig : RankedSignal)
    (hnodup : (recent.map RankedSignal.correlationId).Nodup)
    (hlen : recent.length ≤ maxAiExplanations) :
    ((cap (sig :: recent.filter fun s => s.correlationId ≠ sig.correlationId)
        maxAiExplanations).map RankedSignal.correlationId).reverse
      = (useKey maxAiExplanations (recent.map RankedSignal.correlationId).reverse
          sig.correlationId).2 := by
  have hfilter : (recent.filter fun s => s.correlationId ≠ sig.correlationId).map
      RankedSignal.correlationId
        = (recent.map RankedSignal.correlationId).filter (· ≠ sig.correlationId) := by
    rw [List.filter_map]
    rfl
  have hreverse : ((cap (sig :: recent.filter fun s => s.correlationId ≠ sig.correlationId)
      maxAiExplanations).map RankedSignal.correlationId).reverse
        = lastN maxAiExplanations
          ((recent.map RankedSignal.correlationId).reverse.filter (· ≠ sig.correlationId)
            ++ [sig.correlationId]) := by
    rw [cap_eq_take, List.map_take, List.reverse_take, List.map_cons, hfilter, List.reverse_cons,
      ← List.filter_reverse, lastN]
    simp
  rw [hreverse, useKey]
  split_ifs with hmem
  · have hkeep := length_filter_ne_concat (List.nodup_reverse.mpr hnodup) hmem
    rw [lastN_of_length_le]
    rw [hkeep, List.length_reverse, List.length_map]
    exact hlen
  · rw [filter_ne_of_notMem hmem]

theorem SignalsSlice.Shows.reduceSignals {slice : SignalsSlice} {log : List RankedSignal}
    (h : slice.Shows log) {sig : RankedSignal} {warMode : WarModeStatus}
    (htaken : sig.isTaken warMode = true) :
    (reduceSignals slice sig warMode).Shows (log ++ [sig]) := by
  rw [Cockpit.reduceSignals, if_pos htaken]
  have hnodup : (slice.recent.map RankedSignal.correlationId).Nodup := by
    rw [← List.nodup_reverse, h.ids]
    exact (List.nodup_dedup _).sublist (List.drop_sublist _ _)
  have hlen : slice.recent.length ≤ maxAiExplanations := by
    have hids := congrArg List.length h.ids
    rw [List.length_reverse, List.length_map, length_lastN] at hids
    omega
  constructor
  · rw [ids_take_cons sig hnodup hlen, h.ids, useKey_lastN, List.map_append]
    rfl
  · intro shown hshown
    rw [cap_eq_take] at hshown
    rw [lastVersion_concat]
    rcases List.mem_cons.mp (List.mem_of_mem_take hshown) with rfl | hold
    · rw [if_pos rfl]
    · obtain ⟨hmem, hne⟩ := List.mem_filter.mp hold
      rw [if_neg (of_decide_eq_true hne)]
      exact h.versions shown hmem
  · intro id
    rw [lastVersion_concat]
    by_cases hid : id = sig.correlationId
    · rw [if_pos hid, hid]
      exact AList.lookup_insert _
    · rw [if_neg hid, ← h.table id]
      exact AList.lookup_insert_ne hid

namespace CockpitState

theorem shows_initial (nowMs : ℤ) : (initial nowMs).signals.Shows [] where
  ids := rfl
  versions := fun _ h => absurd h List.not_mem_nil
  table := fun _ => rfl

/-- A frame on another channel leaves the signals. -/
theorem signals_of_reduce {platform : Platform} {env : StoreEnv} {s next : CockpitState}
    {envelope : ServerEnvelope} (hnext : reduce platform env s envelope = some next)
    (hchannel : envelope.channel ≠ .signals) : next.signals = s.signals := by
  rw [CockpitState.reduce] at hnext
  cases hc : envelope.channel with
  | signals => exact absurd hc hchannel
  | market | news | alerts | control =>
    rw [hc] at hnext
    cases hnext
    rfl
  | orderflow | risk | exec | psych | replay | latency =>
    rw [hc] at hnext
    obtain ⟨slice, _, rfl⟩ := Option.map_eq_some_iff.mp hnext
    rfl

/-- On the channel of signals the slice follows the log. -/
theorem shows_reduceSignalsChannel {platform : Platform} {s : CockpitState}
    {log : List RankedSignal} (h : s.signals.Shows log) {envelope : ServerEnvelope}
    (hchannel : envelope.channel = .signals) (env : StoreEnv) (nowMs : ℤ) :
    (reduceSignalsChannel platform s.signals envelope s.warMode).Shows
      ((signalCalls s (.applyEnvelope env envelope nowMs)).foldl LogCall.apply log) := by
  rw [reduceSignalsChannel, signalCalls, takenSignal]
  · cases hpriority : isPriorityChange envelope with
    | true =>
      rw [if_pos rfl, if_neg fun hand => absurd hand.2 (by decide)]
      split
      · exact ⟨h.ids, h.versions, h.table⟩
      · exact h
    | false =>
      rw [if_neg (by decide), if_pos ⟨hchannel, rfl⟩]
      cases hflat : flattenSignalPayload envelope.payload with
      | none => exact h
      | some flat =>
        cases htaken : flat.isTaken s.warMode with
        | true =>
          rw [Option.filter_some, if_pos htaken]
          exact h.reduceSignals htaken
        | false =>
          rw [Option.filter_some, htaken, if_neg (by decide)]
          change (reduceSignals s.signals flat s.warMode).Shows log
          rw [reduceSignals, htaken, if_neg (by decide)]
          exact h
  · exact fun nowMs h => by cases h

/-- The slice of signals changes with a signal that is taken, and with the settings. -/
theorem shows_step {platform : Platform} {s : CockpitState} {log : List RankedSignal}
    (h : s.signals.Shows log) (action : StoreAction) :
    (step platform s action).2.signals.Shows ((signalCalls s action).foldl LogCall.apply log) := by
  cases action with
  | applyEnvelope env envelope nowMs =>
    change ((s.applyEnvelope platform env envelope nowMs).getD s).signals.Shows _
    rw [CockpitState.applyEnvelope]
    by_cases hchannel : envelope.channel = .signals
    · rw [CockpitState.reduce, hchannel]
      exact shows_reduceSignalsChannel h hchannel env nowMs
    · have hnone : signalCalls s (.applyEnvelope env envelope nowMs) = [] := by
        rw [signalCalls, takenSignal, if_neg fun hand => hchannel hand.1]
        · rfl
        · exact fun nowMs h => by cases h
      rw [hnone]
      cases hreduce : CockpitState.reduce platform env s envelope with
      | none => exact h
      | some next =>
        change next.signals.Shows log
        rw [signals_of_reduce hreduce hchannel]
        exact h
  | reset nowMs => exact shows_initial nowMs
  | recomputeFeedStatus nowMs laterMs =>
    rw [CockpitState.step]
    split_ifs
    · exact h
    · exact h
  | _ => exact ⟨h.ids, h.versions, h.table⟩

/-- **The signals shown are the last ones taken.** After any frames and actions the list holds the 100
correlation ids used last, newest first, each with the last signal taken for it since the store was
reset, and the table has the last signal of every id. -/
theorem signals_shown (platform : Platform) (startMs : ℤ) (actions : List StoreAction) :
    (after platform startMs actions).signals.Shows (signalLog platform startMs actions) := by
  induction actions using List.reverseRecOn with
  | nil => exact shows_initial startMs
  | append_singleton actions action ih =>
    have hafter : after platform startMs (actions ++ [action])
        = (step platform (after platform startMs actions) action).2 := by
      rw [after, runState_append]
      rfl
    have hlog : signalLog platform startMs (actions ++ [action])
        = (signalCalls (after platform startMs actions) action).foldl LogCall.apply
          (signalLog platform startMs actions) := by
      rw [signalLog, runOutputs_concat, List.flatten_concat, LogCall.since, List.foldl_append]
      rfl
    rw [hafter, hlog]
    exact shows_step ih action

end CockpitState

end Hedge.Cockpit
