import Hedge.Features.Integers
import Hedge.Signals.Strategies

/-!
# The compression zone

Reference: `compression::compute` and `atr::compute_paise` of `hedge-features`,
`VolatilityCompressionBreakout::evaluate` of `hedge-signals`.

The ATR is the mean of changes between neighbours in the window of prices whose range it is compared
with. So the range is never below it, the zone is zero after every tick, and the strategy that waits
for more than one half never trades.
-/

namespace Hedge.Pipeline

open Hedge Hedge.Common Hedge.Core Hedge.Features Hedge.Signals
open Hedge.Common.ExactFloat (fin)

/-! ## The engine -/

/-- What reaches the feature engine. -/
inductive EngineAction where
  | tick (tick : Tick)
  | reset (symbol : SymbolId)
  | orderflow (symbol : SymbolId) (value : ExactFloat)

/-- One action: the snapshot of a tick, and the next engine. -/
def engineStep (libm : Libm) (engine : FeatureExtractionEngine) :
    EngineAction → Option FeatureSnapshot × FeatureExtractionEngine
  | .tick tick =>
    let out := engine.processTick libm tick
    (some out.2, out.1)
  | .reset symbol => (none, engine.resetSymbol symbol)
  | .orderflow symbol value => (none, engine.ingestOrderflowPressure symbol value)

/-- The engine after some actions. -/
abbrev engineAfter (libm : Libm) (actions : List EngineAction) : FeatureExtractionEngine :=
  runState (engineStep libm) ∅ actions

/-- A full window of prices ranges over at least the ATR of the snapshot, and the zone is zero. -/
structure RangeCovers (state : FeatureState) (snap : FeatureSnapshot) : Prop where
  range : state.compressionPrices.len = compressionWindow → ∃ hi lo,
    IsGreatest {p | p ∈ state.compressionPrices.iter.map Int64.toInt} hi ∧
    IsLeast {p | p ∈ state.compressionPrices.iter.map Int64.toInt} lo ∧ snap.atr.toInt ≤ hi - lo
  zone : snap.compressionZone = fin 0

/-- So it is after every tick of a state that starts fresh. -/
def CoversAlong (libm : Libm) (ticks : List Tick) : Prop :=
  ∀ pre t post, ticks = pre ++ t :: post →
    let out := processTickIntoState libm (afterTicks libm pre) t
    RangeCovers out.1 out.2

/-- No snapshot of the engine makes the strategy trade. -/
def NeverTrades (libm : Libm) (actions : List EngineAction) : Prop :=
  ∀ pre action post, actions = pre ++ action :: post →
    ∀ snap, (engineStep libm (engineAfter libm pre) action).1 = some snap →
      ∀ ctx, volatilityCompressionBreakout.strategy.evaluate snap ctx = none

/-! ## Range and changes -/

/-- A change among the last `k` is one between two of the last `n` prices. -/
theorem exists_of_mem_changes {ps : List ℤ} {n k : ℕ} (hn : n ≤ ps.length) (hk : k < n) {x : ℤ}
    (hx : x ∈ (changes ps).rtake k) : ∃ p ∈ ps.rtake n, ∃ q ∈ ps.rtake n, x = |p - q| := by
  have hmem : ∀ i, ps.length - n ≤ i → i < ps.length → ps.getD i 0 ∈ ps.rtake n := by
    intro i hlo hhi
    rw [List.getD_eq_getElem _ _ hhi, List.rtake, List.mem_drop_iff_getElem]
    exact ⟨i - (ps.length - n), by omega, by congr 1; omega⟩
  rw [List.rtake, length_changes, List.mem_drop_iff_getElem] at hx
  obtain ⟨j, hj, rfl⟩ := hx
  rw [length_changes] at hj
  refine ⟨_, hmem (ps.length - k + j) (by omega) (by omega),
    _, hmem (ps.length - k + j - 1) (by omega) (by omega), ?_⟩
  simp [changes, Nat.add_comm]

/-- The mean of the last changes is at most the range of a longer window. -/
theorem atrPaise_le_range {ps : List ℤ} (hfull : compressionWindow ≤ ps.length) {hi lo : ℤ}
    (hhi : IsGreatest {p | p ∈ ps.rtake compressionWindow} hi)
    (hlo : IsLeast {p | p ∈ ps.rtake compressionWindow} lo) : atrPaise ps ≤ hi - lo := by
  refine (meanOf_mem (sub_nonneg.mpr (hlo.2 hhi.1)) fun x hx => ?_).2
  obtain ⟨p, hp, q, hq, rfl⟩ := exists_of_mem_changes hfull (by decide) hx
  have hphi : p ≤ hi := hhi.2 hp
  have hplo : lo ≤ p := hlo.2 hp
  have hqhi : q ≤ hi := hhi.2 hq
  have hqlo : lo ≤ q := hlo.2 hq
  exact ⟨abs_nonneg _, abs_le.mpr ⟨by omega, by omega⟩⟩

section State

variable {ps : List ℤ} {s : FeatureState} (h : WindowsOf ps s.historyView)

include h

theorem le_length_of_full (hfull : ¬ s.compressionPrices.len < compressionWindow) :
    compressionWindow ≤ ps.length := by
  have hwindow : s.compressionPrices.iter.map Int64.toInt = ps.rtake compressionWindow :=
    h.compression
  have hlength := congrArg List.length hwindow
  rw [List.length_map, RingWindow.length_iter, List.rtake, List.length_drop] at hlength
  omega

/-- After a tick with positive prices the zone is zero. -/
theorem compressionZone_eq_zero (hpos : ∀ p ∈ ps, 0 < p) : compressionZone s = fin 0 := by
  rw [compressionZone]
  split_ifs with hfilling
  · rfl
  · have hfull := le_length_of_full h hfilling
    have hwindow : s.compressionPrices.iter.map Int64.toInt = ps.rtake compressionWindow :=
      h.compression
    have hne : s.compressionPrices.iter ≠ [] := by
      rw [Ne, ← List.map_eq_nil_iff (f := Int64.toInt), hwindow]
      refine rtake_ne_nil ?_ (by decide)
      rintro rfl
      exact absurd hfull (by decide)
    have hhi := isGreatest_scan hne
    have hlo := isLeast_scan hne
    rw [hwindow] at hhi hlo
    have hcover := atrPaise_le_range hfull hhi hlo
    rw [← atr_of_windows h] at hcover
    extract_lets hi lo atr
    have hhi' : 0 < hi.toInt := hpos _ (List.mem_of_mem_drop hhi.1)
    have hlo' : 0 < lo.toInt := hpos _ (List.mem_of_mem_drop hlo.1)
    have hrange : (hi - lo).toInt = hi.toInt - lo.toInt := by
      have hlt := hi.toInt_lt
      have hlt' := lo.toInt_lt
      rw [Int64.toInt_sub]
      apply Int.bmod_eq_of_le <;> omega
    split_ifs with hatr
    · rfl
    · have hratio : 1 ≤ f64OfI64 (hi - lo) / atr := by
        rw [le_div_iff₀ (not_le.mp hatr), one_mul, f64OfI64, hrange]
        have hcover : (Atr.computePaise s).toInt ≤ hi.toInt - lo.toInt := hcover
        exact Int.cast_le.mpr hcover
      have hclamp : clampRat 0 1 (1 - f64OfI64 (hi - lo) / atr) = 0 := by
        rw [clampRat, min_eq_left (by linarith), max_eq_left (by linarith)]
      rw [hclamp]
      norm_num [f32OfRat, ExactFloat.toF32]

/-- The whole of it, for the snapshot that is read off the state. -/
theorem rangeCovers_of_windows (hpos : ∀ p ∈ ps, 0 < p) (libm : Libm) (t : Tick) :
    RangeCovers s (snapshotOf libm s t) where
  range := by
    intro hfull
    have hlength := le_length_of_full h (by omega)
    have hwindow : s.compressionPrices.iter.map Int64.toInt = ps.rtake compressionWindow :=
      h.compression
    have hne : s.compressionPrices.iter ≠ [] := by
      rw [← List.length_pos_iff, RingWindow.length_iter, hfull]
      decide
    have hhi := isGreatest_scan hne
    have hlo := isLeast_scan hne
    refine ⟨_, _, hhi, hlo, ?_⟩
    rw [hwindow] at hhi hlo
    have hatr : (snapshotOf libm s t).atr.toInt = atrPaise ps := atr_of_windows h
    rw [hatr]
    exact atrPaise_le_range hlength hhi hlo
  zone := compressionZone_eq_zero h hpos

end State

/-! ## The strategy -/

/-- A zone that is not above one half is not traded. -/
theorem evaluate_eq_none {snap : FeatureSnapshot} (hzone : snap.compressionZone = fin 0)
    (ctx : StrategyContext) : volatilityCompressionBreakout.strategy.evaluate snap ctx = none := by
  have hside : volatilityCompressionBreakout.side snap ctx = none := by
    have hle : snap.compressionZone.le (fin (1 / 2)) = true := by
      rw [hzone, ExactFloat.le_fin]
      norm_num
    exact if_pos hle
  rw [← Option.not_isSome_iff_eq_none, Setup.isSome_evaluate, hside]
  decide

/-! ## Runs -/

/-- Every symbol's state is one after a run with positive prices. -/
def Reached (libm : Libm) (engine : FeatureExtractionEngine) : Prop :=
  ∀ symbol, ∃ inputs, (∀ p ∈ pricesOf inputs, 0 < p) ∧
    engine.cell symbol = stateAfter libm inputs

/-- The ticks of some actions have positive prices. -/
def EngineAction.Positive : EngineAction → Prop
  | .tick t => 0 < t.ltpPaise.toInt
  | _ => True

instance : DecidablePred EngineAction.Positive
  | .tick t => inferInstanceAs (Decidable (0 < t.ltpPaise.toInt))
  | .reset _ | .orderflow _ _ => isTrue trivial

theorem cell_insert (engine : FeatureExtractionEngine) (symbol symbol' : SymbolId)
    (s : FeatureState) :
    FeatureExtractionEngine.cell (AList.insert symbol s engine) symbol'
      = if symbol' = symbol then s else engine.cell symbol' := by
  rw [FeatureExtractionEngine.cell]
  split_ifs with heq
  · rw [heq, AList.lookup_insert, Option.getD_some]
  · rw [AList.lookup_insert_ne heq, FeatureExtractionEngine.cell]

theorem reached_insert {libm : Libm} {engine : FeatureExtractionEngine}
    (h : Reached libm engine) (symbol : SymbolId) {inputs : List FeatureInput}
    (hpos : ∀ p ∈ pricesOf inputs, 0 < p) :
    Reached libm (AList.insert symbol (stateAfter libm inputs) engine) := by
  intro symbol'
  rw [cell_insert]
  split_ifs
  · exact ⟨inputs, hpos, rfl⟩
  · exact h symbol'

theorem reached_engineStep (libm : Libm) (engine : FeatureExtractionEngine) (action : EngineAction)
    (hpos : action.Positive) (h : Reached libm engine) :
    Reached libm (engineStep libm engine action).2 := by
  cases action with
  | tick t =>
    obtain ⟨inputs, hinputs, hcell⟩ := h ⟨t.symbol⟩
    have hnext : ∀ p ∈ pricesOf (inputs ++ [.tick t]), 0 < p := by
      intro p hp
      rw [pricesOf_append] at hp
      rcases List.mem_append.mp hp with hp | hp
      · exact hinputs p hp
      · obtain rfl := Option.mem_toList.mp hp |> Option.some.inj
        exact hpos
    have hstate : (engineStep libm engine (.tick t)).2
        = AList.insert ⟨t.symbol⟩ (stateAfter libm (inputs ++ [.tick t])) engine := by
      rw [stateAfter_append, ← hcell]
      rfl
    rw [hstate]
    exact reached_insert h _ hnext
  | reset symbol =>
    rw [engineStep, FeatureExtractionEngine.resetSymbol]
    split
    · exact h
    · have hfresh : ∀ p ∈ pricesOf [], 0 < p := nofun
      exact reached_insert h symbol hfresh
  | orderflow symbol value =>
    obtain ⟨inputs, hinputs, hcell⟩ := h symbol
    have hnext : ∀ p ∈ pricesOf (inputs ++ [.orderflow value]), 0 < p := by
      rw [pricesOf_append]
      simpa [FeatureInput.price] using hinputs
    have hstate : (engineStep libm engine (.orderflow symbol value)).2
        = AList.insert symbol (stateAfter libm (inputs ++ [.orderflow value])) engine := by
      rw [stateAfter_append, ← hcell]
      rfl
    rw [hstate]
    exact reached_insert h _ hnext

/-- The snapshot of a tick shows the zone of the new state of its symbol. -/
theorem compressionZone_engineStep (libm : Libm) (engine : FeatureExtractionEngine) (t : Tick) :
    (engine.processTick libm t).2.compressionZone
      = compressionZone ((engineStep libm engine (.tick t)).2.cell ⟨t.symbol⟩) := by
  have hcell : (engineStep libm engine (.tick t)).2.cell ⟨t.symbol⟩
      = (processTickIntoState libm (engine.cell ⟨t.symbol⟩) t).1 := by
    simp [engineStep, FeatureExtractionEngine.processTick, FeatureExtractionEngine.cell]
  have hsnap : ∀ s, (processTickIntoState libm s t).2
      = snapshotOf libm (processTickIntoState libm s t).1 t := fun _ => rfl
  have hzone : ∀ s, (snapshotOf libm s t).compressionZone = compressionZone s := fun _ => rfl
  have hout : (engine.processTick libm t).2
      = (processTickIntoState libm (engine.cell ⟨t.symbol⟩) t).2 := rfl
  rw [hout, hsnap, hzone, hcell]

/-- With positive prices the range of a full window is never below the ATR, the zone is zero after
every tick, and no snapshot of the engine makes the strategy trade. -/
theorem compression_never_traded (libm : Libm) (ticks : List Tick) (actions : List EngineAction)
    (hticks : ∀ p ∈ prices ticks, 0 < p) (hactions : ∀ action ∈ actions, action.Positive) :
    CoversAlong libm ticks ∧ NeverTrades libm actions := by
  constructor
  · intro pre t post hsplit
    have hpos : ∀ p ∈ prices (pre ++ [t]), 0 < p := by
      intro p hp
      refine hticks p ?_
      rw [hsplit, ← List.singleton_append, ← List.append_assoc, prices, List.map_append]
      exact List.mem_append_left _ hp
    have hwindows := windowsOf_afterTicks libm hpos
    rw [afterTicks_concat] at hwindows
    exact rangeCovers_of_windows hwindows hpos libm t
  · intro pre action post hsplit snap hsnap ctx
    have hreached : Reached libm (engineStep libm (engineAfter libm pre) action).2 := by
      refine reached_engineStep libm _ action (hactions action (by simp [hsplit])) ?_
      refine runState_invariant (engineStep libm) (Reached libm) (reached_engineStep libm)
        (fun symbol => ⟨[], fun _ hp => absurd hp List.not_mem_nil, rfl⟩) fun a ha => hactions a ?_
      rw [hsplit]
      exact List.mem_append_left _ ha
    cases action with
    | tick t =>
      obtain rfl := Option.some.inj hsnap
      obtain ⟨inputs, hinputs, hcell⟩ := hreached ⟨t.symbol⟩
      refine evaluate_eq_none ?_ ctx
      rw [compressionZone_engineStep, hcell]
      exact compressionZone_eq_zero (windowsOf_stateAfter libm hinputs) hinputs
    | reset symbol => cases hsnap
    | orderflow symbol value => cases hsnap

/-- Prices that swing, for longer than the windows of the last twenty. -/
def swing : List Tick :=
  (List.range 24).map fun i => tradeAt (if i % 2 = 0 then 100 else 104)

/-- The same ticks twice, with an order-flow value before them and a reset between. -/
def swingActions : List EngineAction :=
  .orderflow ⟨1⟩ (.fin 3) :: swing.map .tick ++ .reset ⟨1⟩ :: swing.map .tick

theorem compression_never_traded_swing :
    CoversAlong noLibm swing ∧ NeverTrades noLibm swingActions :=
  compression_never_traded noLibm swing swingActions (by decide +kernel) (by decide +kernel)

end Hedge.Pipeline
