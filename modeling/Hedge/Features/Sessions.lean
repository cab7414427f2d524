import Hedge.Common.Run
import Hedge.Features.Engine
import Hedge.MarketData.Ticks
import Mathlib.Data.List.DropRight

/-!
# The features service across sessions

Reference: `hedge-features/src/bin/main.rs`, `hedge-features/src/incremental/vwap.rs`.

The service subscribes to `md.tick.bin.>` and to nothing else: the start of a session is a message it
never receives, and nothing calls the reset of the engine. The accumulators of a symbol go back to
the start of the process.
-/

namespace Hedge.Features

open Hedge Hedge.Common Hedge.MarketData

/-! ## The main loop -/

/-- The tick that the main loop receives of a message on the bus. -/
def receivedTick (m : BusMessage) : Option Tick :=
  if tokensMatch (tokensOf "md.tick.bin.>") (tokensOf m.subject) then decodeTick m.payload else none

/-- One message on the bus: the snapshot that is published on it, and the engine after it. -/
def serviceStep (libm : Libm) (engine : FeatureExtractionEngine) (m : BusMessage) :
    Option FeatureSnapshot × FeatureExtractionEngine :=
  match receivedTick m with
  | some tick =>
    let out := engine.processTick libm tick
    (some out.2, out.1)
  | none => (none, engine)

/-- The `ops.session.start` event. -/
def isSessionStart (m : BusMessage) : Bool := m.subject = "ops.session.start"

/-- The messages before the latest session start, and the start itself. -/
def beforeStart (messages : List BusMessage) : List BusMessage :=
  messages.rdropWhile fun m => !isSessionStart m

/-- The messages since the latest session start. -/
def sinceStart (messages : List BusMessage) : List BusMessage :=
  messages.rtakeWhile fun m => !isSessionStart m

/-- The ticks of a symbol among some messages. -/
def ticksOf (symbol : UInt32) (messages : List BusMessage) : List Tick :=
  (messages.filterMap receivedTick).filter fun t => t.symbol = symbol

/-- The volume of some ticks. -/
def volume (ticks : List Tick) : ℕ := (ticks.map fun t => t.ltq.toNat).sum

/-- The value of some ticks, in paise. -/
def tradedPaise (ticks : List Tick) : ℤ :=
  (ticks.map fun t => t.ltpPaise.toInt * (t.ltq.toNat : ℤ)).sum

/-- The volume-weighted average price of some ticks in paise, zero when none has traded. -/
def averagePaise (ticks : List Tick) : ℤ :=
  if volume ticks = 0 then 0 else (tradedPaise ticks).tdiv (volume ticks)

/-- Each published snapshot carries the average of its session. -/
def VwapSinceStart (libm : Libm) (messages : List BusMessage) : Prop :=
  ∀ pre m post, messages = pre ++ m :: post →
    ∀ snap, (serviceStep libm (runState (serviceStep libm) ∅ pre) m).1 = some snap →
      snap.vwap.toInt = averagePaise (ticksOf snap.symbol (sinceStart (pre ++ [m])))

/-- A tick whose symbol did not trade before the latest session start; what it has traded since fits
the accumulators. -/
structure StartsFresh (pre : List BusMessage) (t : Tick) (m : BusMessage) : Prop where
  untraded : ∀ u ∈ ticksOf t.symbol (beforeStart (pre ++ [m])), u.ltq = 0
  fits : -2 ^ 127 ≤ tradedPaise (ticksOf t.symbol (sinceStart (pre ++ [m]))) ∧
    tradedPaise (ticksOf t.symbol (sinceStart (pre ++ [m]))) < 2 ^ 127
  fitsVolume : volume (ticksOf t.symbol (sinceStart (pre ++ [m]))) < 2 ^ 127

/-! ## Accumulators -/

theorem ticksOf_append (symbol : UInt32) (xs ys : List BusMessage) :
    ticksOf symbol (xs ++ ys) = ticksOf symbol xs ++ ticksOf symbol ys := by
  rw [ticksOf, List.filterMap_append, List.filter_append, ticksOf, ticksOf]

theorem ticksOf_of_none {symbol : UInt32} {m : BusMessage} (h : receivedTick m = none) :
    ticksOf symbol [m] = [] := by
  rw [ticksOf, List.filterMap_cons_none h, List.filterMap_nil, List.filter_nil]

theorem ticksOf_of_eq {m : BusMessage} {t : Tick} (h : receivedTick m = some t) :
    ticksOf t.symbol [m] = [t] := by
  rw [ticksOf, List.filterMap_cons_some h, List.filterMap_nil]
  exact List.filter_cons_of_pos (decide_eq_true rfl)

theorem ticksOf_of_ne {symbol : UInt32} {m : BusMessage} {t : Tick} (h : receivedTick m = some t)
    (hne : t.symbol ≠ symbol) : ticksOf symbol [m] = [] := by
  rw [ticksOf, List.filterMap_cons_some h, List.filterMap_nil,
    List.filter_cons_of_neg (by rw [decide_eq_true_eq]; exact hne), List.filter_nil]

theorem volume_singleton (t : Tick) : volume [t] = t.ltq.toNat := Nat.add_zero _

theorem tradedPaise_singleton (t : Tick) :
    tradedPaise [t] = t.ltpPaise.toInt * t.ltq.toNat := Int.add_zero _

theorem volume_append (xs ys : List Tick) : volume (xs ++ ys) = volume xs + volume ys := by
  rw [volume, List.map_append, List.sum_append, volume, volume]

theorem tradedPaise_append (xs ys : List Tick) :
    tradedPaise (xs ++ ys) = tradedPaise xs + tradedPaise ys := by
  rw [tradedPaise, List.map_append, List.sum_append, tradedPaise, tradedPaise]

/-- Ticks without a trade add nothing. -/
theorem totals_of_untraded {ticks : List Tick} (h : ∀ t ∈ ticks, t.ltq = 0) :
    volume ticks = 0 ∧ tradedPaise ticks = 0 := by
  induction ticks with
  | nil => exact ⟨rfl, rfl⟩
  | cons t ticks ih =>
    obtain ⟨hvolume, htraded⟩ := ih fun u hu => h u (List.mem_cons_of_mem _ hu)
    have ht : t.ltq = 0 := h t List.mem_cons_self
    constructor
    · rw [volume, List.map_cons, List.sum_cons, ht, ← volume, hvolume]
      rfl
    · rw [tradedPaise, List.map_cons, List.sum_cons, ht, ← tradedPaise, htraded]
      simp

/-- An average lies between the extreme prices of an `i64`. -/
theorem averagePaise_mem (ticks : List Tick) :
    -2 ^ 63 ≤ averagePaise ticks ∧ averagePaise ticks ≤ 2 ^ 63 - 1 := by
  have hbounds : -2 ^ 63 * (volume ticks : ℤ) ≤ tradedPaise ticks ∧
      tradedPaise ticks ≤ (2 ^ 63 - 1) * volume ticks := by
    induction ticks with
    | nil => simp [volume, tradedPaise]
    | cons t ticks ih =>
      have hlow := t.ltpPaise.le_toInt
      have hhigh := t.ltpPaise.toInt_lt
      have hqty : (0 : ℤ) ≤ t.ltq.toNat := Int.natCast_nonneg _
      have hsplit : t :: ticks = [t] ++ ticks := rfl
      rw [hsplit, volume_append, tradedPaise_append, volume_singleton, tradedPaise_singleton,
        Nat.cast_add, mul_add, mul_add]
      have hlow' : -2 ^ 63 * (t.ltq.toNat : ℤ) ≤ t.ltpPaise.toInt * t.ltq.toNat :=
        mul_le_mul_of_nonneg_right hlow hqty
      have hhigh' : t.ltpPaise.toInt * t.ltq.toNat ≤ (2 ^ 63 - 1) * (t.ltq.toNat : ℤ) :=
        mul_le_mul_of_nonneg_right (by omega) hqty
      omega
  rw [averagePaise]
  split_ifs with hzero
  · norm_num
  · have hpos : (0 : ℤ) < volume ticks := by omega
    have hne : (volume ticks : ℤ) ≠ 0 := hpos.ne'
    have hlow := Int.tdiv_le_tdiv hpos hbounds.1
    have hhigh := Int.tdiv_le_tdiv hpos hbounds.2
    rw [Int.mul_tdiv_cancel _ hne] at hlow hhigh
    exact ⟨hlow, hhigh⟩

/-- The fields behind the average. -/
def FeatureState.vwapView (s : FeatureState) : ℤ × ℕ := (s.vwapNum, s.vwapDen)

/-- Only its own update changes the fields behind the average. -/
theorem vwapView_processTick (libm : Libm) (s : FeatureState) (t : Tick) :
    (processTickIntoState libm s t).1.vwapView = (Vwap.update s t).vwapView := by
  have hvwap : ∀ s s' : FeatureState, s.vwapView = s'.vwapView →
      (Vwap.update s t).vwapView = (Vwap.update s' t).vwapView := by
    intro s s' h
    obtain ⟨hnum, hden⟩ := Prod.mk.inj h
    rw [Vwap.update, Vwap.update]
    split_ifs
    · exact h
    · simp only [FeatureState.vwapView, hnum, hden]
  have hvolatility : ∀ s : FeatureState, (Volatility.update libm s t).vwapView = s.vwapView :=
    fun s => Volatility.view_update FeatureState.vwapView (fun _ _ => rfl) libm s t
  have hrsi : ∀ s : FeatureState, (Rsi.update s t).vwapView = s.vwapView :=
    fun s => Rsi.view_update FeatureState.vwapView (fun _ _ _ _ => rfl) s t
  have hadx : ∀ s : FeatureState, (Adx.update s t).vwapView = s.vwapView :=
    fun s => Adx.view_update FeatureState.vwapView (fun _ _ _ _ _ _ => rfl) s t
  have hafter : ∀ s : FeatureState, (Adx.update (Donchian.update (Rsi.update (Sweep.update
      (Candle.update (Momentum.update (Volatility.update libm s t) t) t) t) t) t) t).vwapView
        = s.vwapView := by
    intro s
    have hsweep : ∀ s : FeatureState, (Sweep.update (Candle.update s t) t).vwapView = s.vwapView :=
      fun _ => rfl
    have hmomentum : ∀ s : FeatureState, (Momentum.update s t).vwapView = s.vwapView := fun _ => rfl
    have hdonchian : ∀ s : FeatureState, (Donchian.update s t).vwapView = s.vwapView := fun _ => rfl
    rw [hadx, hdonchian, hrsi, hsweep, hmomentum, hvolatility]
  have hbars : ∀ s : FeatureState, (Ema.update (Atr.update s t) t).vwapView = s.vwapView :=
    fun _ => rfl
  have hbefore : (Liquidity.update (RollingDelta.update s t) t).vwapView = s.vwapView := rfl
  have hadvance : ∀ s : FeatureState, (advance s t).vwapView = s.vwapView := fun _ => rfl
  have hstate : (processTickIntoState libm s t).1 = advance (updateIndicators libm s t) t := rfl
  rw [hstate, hadvance]
  simp only [updateIndicators]
  rw [hafter, hbars, hvwap _ _ hbefore]

/-- One tick folded into the numerator and the denominator. -/
def accumulate (v : ℤ × ℕ) (t : Tick) : ℤ × ℕ :=
  if t.ltq.toNat = 0 then v
  else
    (max (-2 ^ 127) (min (v.1 + t.ltpPaise.toInt * t.ltq.toNat) (2 ^ 127 - 1)),
      min (v.2 + t.ltq.toNat) (2 ^ 128 - 1))

/-- The price of a numerator and a denominator. -/
def priceOf (v : ℤ × ℕ) : Int64 :=
  if v.2 = 0 then 0 else Int64.clamp (v.1.tdiv ((v.2 : ℤ).bmod (2 ^ 128)))

theorem vwapView_update (s : FeatureState) (t : Tick) :
    (Vwap.update s t).vwapView = accumulate s.vwapView t := by
  rw [Vwap.update, accumulate]
  split_ifs <;> rfl

theorem computePaise_eq (s : FeatureState) : Vwap.computePaise s = priceOf s.vwapView := rfl

theorem processTick_vwap (libm : Libm) (engine : FeatureExtractionEngine) (t : Tick) :
    (engine.processTick libm t).2.vwap
      = Vwap.computePaise (processTickIntoState libm (engine.cell ⟨t.symbol⟩) t).1 := by
  have hsnap : ∀ s, (processTickIntoState libm s t).2
      = snapshotOf libm (processTickIntoState libm s t).1 t := fun _ => rfl
  have hvwap : ∀ s, (snapshotOf libm s t).vwap = Vwap.computePaise s := fun _ => rfl
  have hout : (engine.processTick libm t).2
      = (processTickIntoState libm (engine.cell ⟨t.symbol⟩) t).2 := rfl
  rw [hout, hsnap, hvwap]

/-- What a published snapshot says of a symbol. -/
theorem serviceStep_some {libm : Libm} {engine : FeatureExtractionEngine} {m : BusMessage}
    {snap : FeatureSnapshot} (h : (serviceStep libm engine m).1 = some snap) :
    ∃ t, receivedTick m = some t ∧ snap.symbol = t.symbol ∧
      snap.vwap = priceOf (accumulate (engine.cell ⟨t.symbol⟩).vwapView t) := by
  rw [serviceStep] at h
  split at h
  next t hreceived =>
    obtain rfl := Option.some.inj h
    refine ⟨t, hreceived, rfl, ?_⟩
    rw [processTick_vwap, computePaise_eq, vwapView_processTick, vwapView_update]
  next => cases h

/-- A message changes the accumulators of the symbol of its tick, and those of no other. -/
theorem vwapView_serviceStep (libm : Libm) (engine : FeatureExtractionEngine) (m : BusMessage)
    (symbol : UInt32) :
    ((serviceStep libm engine m).2.cell ⟨symbol⟩).vwapView
      = (ticksOf symbol [m]).foldl accumulate (engine.cell ⟨symbol⟩).vwapView := by
  rw [serviceStep]
  cases hreceived : receivedTick m with
  | none => rw [ticksOf_of_none hreceived, List.foldl_nil]
  | some t =>
    by_cases hsymbol : t.symbol = symbol
    · subst hsymbol
      rw [ticksOf_of_eq hreceived, List.foldl_cons, List.foldl_nil, ← vwapView_update,
        ← vwapView_processTick libm]
      simp [FeatureExtractionEngine.processTick, FeatureExtractionEngine.cell]
    · have hkey : (⟨symbol⟩ : SymbolId) ≠ ⟨t.symbol⟩ := fun h => hsymbol (SymbolId.mk.inj h).symm
      rw [ticksOf_of_ne hreceived hsymbol, List.foldl_nil]
      simp [FeatureExtractionEngine.processTick, FeatureExtractionEngine.cell,
        AList.lookup_insert_ne hkey]

/-- The accumulators of a symbol hold every tick of it since the start of the process. -/
theorem vwapView_run (libm : Libm) (messages : List BusMessage) (symbol : UInt32) :
    ((runState (serviceStep libm) ∅ messages).cell ⟨symbol⟩).vwapView
      = (ticksOf symbol messages).foldl accumulate (0, 0) := by
  induction messages using List.reverseRecOn with
  | nil => rfl
  | append_singleton pre m ih =>
    rw [runState_append, ticksOf_append, List.foldl_append, ← ih]
    exact vwapView_serviceStep libm _ m symbol

/-! ## Sessions -/

theorem ticksOf_split (symbol : UInt32) (messages : List BusMessage) :
    ticksOf symbol messages
      = ticksOf symbol (beforeStart messages) ++ ticksOf symbol (sinceStart messages) := by
  rw [← ticksOf_append, beforeStart, sinceStart]
  congr 1
  exact (List.rdropWhile_append_rtakeWhile).symm

theorem StartsFresh.totals {pre : List BusMessage} {t : Tick} {m : BusMessage}
    (h : StartsFresh pre t m) :
    volume (ticksOf t.symbol (pre ++ [m])) = volume (ticksOf t.symbol (sinceStart (pre ++ [m]))) ∧
      tradedPaise (ticksOf t.symbol (pre ++ [m]))
        = tradedPaise (ticksOf t.symbol (sinceStart (pre ++ [m]))) := by
  obtain ⟨hvolume, htraded⟩ := totals_of_untraded h.untraded
  rw [ticksOf_split t.symbol (pre ++ [m]), volume_append, tradedPaise_append, hvolume, htraded]
  exact ⟨Nat.zero_add _, Int.zero_add _⟩

/-- Each tick of a run meets the condition where it is received. -/
def AllFresh (messages : List BusMessage) : Prop :=
  ∀ pre m post, messages = pre ++ m :: post → ∀ t, receivedTick m = some t → StartsFresh pre t m

theorem AllFresh.of_append {xs ys : List BusMessage} (h : AllFresh (xs ++ ys)) : AllFresh xs := by
  intro pre m post hsplit
  exact h pre m (post ++ ys) (by rw [hsplit, List.append_assoc, List.cons_append])

/-- Under the condition nothing is saturated. -/
theorem AllFresh.accumulated {messages : List BusMessage} (h : AllFresh messages)
    (symbol : UInt32) :
    (ticksOf symbol messages).foldl accumulate (0, 0)
      = (tradedPaise (ticksOf symbol messages), volume (ticksOf symbol messages)) := by
  induction messages using List.reverseRecOn with
  | nil => rfl
  | append_singleton pre m ih =>
    have hold := ih h.of_append
    cases hreceived : receivedTick m with
    | none => rwa [ticksOf_append, ticksOf_of_none hreceived, List.append_nil]
    | some t =>
      by_cases hsymbol : t.symbol = symbol
      · subst hsymbol
        have hfresh := h pre m [] rfl t hreceived
        have hfits := hfresh.fits
        have hfitsVolume := hfresh.fitsVolume
        rw [← hfresh.totals.2] at hfits
        rw [← hfresh.totals.1] at hfitsVolume
        rw [ticksOf_append, ticksOf_of_eq hreceived, tradedPaise_append, tradedPaise_singleton]
          at hfits
        rw [ticksOf_append, ticksOf_of_eq hreceived, volume_append, volume_singleton] at hfitsVolume
        rw [ticksOf_append, ticksOf_of_eq hreceived, List.foldl_append, hold, List.foldl_cons,
          List.foldl_nil, tradedPaise_append, volume_append, volume_singleton,
          tradedPaise_singleton, accumulate]
        split_ifs with hzero
        · rw [hzero, Nat.cast_zero, mul_zero, add_zero, add_zero]
        · rw [min_eq_left (by omega), max_eq_right (by omega), min_eq_left (by omega)]
      · rwa [ticksOf_append, ticksOf_of_ne hreceived hsymbol, List.append_nil]

theorem priceOf_totals {ticks : List Tick} (h : volume ticks < 2 ^ 127) :
    (priceOf (tradedPaise ticks, volume ticks)).toInt = averagePaise ticks := by
  have hmem := averagePaise_mem ticks
  rw [averagePaise] at hmem ⊢
  rw [priceOf]
  dsimp only
  split_ifs with hzero
  · rfl
  · have hden : ((volume ticks : ℤ)).bmod (2 ^ 128) = volume ticks := by
      apply Int.bmod_eq_of_le <;> omega
    rw [if_neg hzero] at hmem
    rw [hden, Int64.toInt_clamp]
    omega

/-- In a run where no symbol ticks after a session start that it has traded before, each snapshot
carries the average of its session. -/
theorem vwapSinceStart_of_allFresh (libm : Libm) (messages : List BusMessage)
    (h : AllFresh messages) : VwapSinceStart libm messages := by
  intro pre m post hsplit snap hsnap
  obtain ⟨t, hreceived, hsymbol, hvwap⟩ := serviceStep_some hsnap
  have hfresh := h pre m post hsplit t hreceived
  have hupto : AllFresh (pre ++ [m]) := by
    apply AllFresh.of_append
    rwa [List.append_assoc, List.singleton_append, ← hsplit]
  have hview : accumulate ((runState (serviceStep libm) ∅ pre).cell ⟨t.symbol⟩).vwapView t
      = (tradedPaise (ticksOf t.symbol (pre ++ [m])), volume (ticksOf t.symbol (pre ++ [m]))) := by
    rw [← hupto.accumulated, vwapView_run, ticksOf_append, ticksOf_of_eq hreceived,
      List.foldl_append]
    rfl
  have haverage : averagePaise (ticksOf t.symbol (pre ++ [m]))
      = averagePaise (ticksOf t.symbol (sinceStart (pre ++ [m]))) := by
    rw [averagePaise, averagePaise, hfresh.totals.1, hfresh.totals.2]
  rw [hvwap, hview, hsymbol, ← haverage, priceOf_totals]
  rw [hfresh.totals.1]
  exact hfresh.fitsVolume

/-- A trade of one share of RELIANCE. -/
def tradeAt (price : Int64) : Tick :=
  ⟨Vector.replicate 16 0, 1, 0, price, price, price, 1, 0, 0, 0, 0⟩

def tradeMessage (price : Int64) : BusMessage :=
  ⟨"md.tick.bin.RELIANCE", tickToRawBytes (tradeAt price)⟩

def startMessage : BusMessage := ⟨"ops.session.start", []⟩

/-- Logarithm and root that are never asked in these runs. -/
def noLibm : Libm := ⟨fun _ => 0, fun _ => 0⟩

theorem receivedTick_trade (price : Int64) :
    receivedTick (tradeMessage price) = some (tradeAt price) := by
  have hsubject : tokensMatch (tokensOf "md.tick.bin.>") (tokensOf "md.tick.bin.RELIANCE")
      = true := by decide
  exact (if_pos hsubject).trans (decodeTick_tickToRawBytes _)

theorem receivedTick_start : receivedTick startMessage = none := by
  rw [receivedTick, if_neg (by decide)]

/-- A share at 100, the start of a session and a share at 200: the average is 150. -/
theorem vwap_carried_over_start : ¬ ∀ libm messages, VwapSinceStart libm messages := by
  intro hall
  have hsome : ∃ snap, (serviceStep noLibm (runState (serviceStep noLibm) ∅
      [tradeMessage 100, startMessage]) (tradeMessage 200)).1 = some snap := by
    rw [serviceStep, receivedTick_trade]
    exact ⟨_, rfl⟩
  obtain ⟨snap, hsnap⟩ := hsome
  have hvwap := hall noLibm [tradeMessage 100, startMessage, tradeMessage 200]
    [tradeMessage 100, startMessage] (tradeMessage 200) [] rfl snap hsnap
  obtain ⟨t, hreceived, hsymbol, hprice⟩ := serviceStep_some hsnap
  obtain rfl : tradeAt 200 = t := Option.some.inj ((receivedTick_trade 200).symm.trans hreceived)
  have hsince : sinceStart ([tradeMessage 100, startMessage] ++ [tradeMessage 200])
      = [tradeMessage 200] := rfl
  have hticks : ticksOf (tradeAt 200).symbol [tradeMessage 100, startMessage] = [tradeAt 100] := by
    simp [ticksOf, receivedTick_trade, receivedTick_start, tradeAt]
  have hlast : ticksOf (tradeAt 200).symbol [tradeMessage 200] = [tradeAt 200] := by
    simp [ticksOf, receivedTick_trade]
  rw [hprice, hsymbol, vwapView_run, hsince, hticks, hlast] at hvwap
  exact absurd hvwap (by decide)

theorem vwapSinceStart_of_allFresh_start_first :
    VwapSinceStart noLibm [startMessage, tradeMessage 100, tradeMessage 200] := by
  have hbefore : ticksOf 1 [startMessage] = [] := by
    simp [ticksOf, receivedTick_start]
  have hone : ticksOf 1 [tradeMessage 100] = [tradeAt 100] := by
    simp [ticksOf, receivedTick_trade, tradeAt]
  have htwo : ticksOf 1 [tradeMessage 100, tradeMessage 200] = [tradeAt 100, tradeAt 200] := by
    simp [ticksOf, receivedTick_trade, tradeAt]
  have hfirst : StartsFresh [startMessage] (tradeAt 100) (tradeMessage 100) := by
    refine ⟨fun u hu => ?_, ?_, ?_⟩
    · rw [show beforeStart ([startMessage] ++ [tradeMessage 100]) = [startMessage] from rfl] at hu
      exact absurd (hbefore ▸ hu) List.not_mem_nil
    all_goals
      rw [show sinceStart ([startMessage] ++ [tradeMessage 100]) = [tradeMessage 100] from rfl,
        show (tradeAt 100).symbol = 1 from rfl, hone]
      decide
  have hsecond : StartsFresh [startMessage, tradeMessage 100] (tradeAt 200) (tradeMessage 200) := by
    refine ⟨fun u hu => ?_, ?_, ?_⟩
    · rw [show beforeStart ([startMessage, tradeMessage 100] ++ [tradeMessage 200])
        = [startMessage] from rfl] at hu
      exact absurd (hbefore ▸ hu) List.not_mem_nil
    all_goals
      rw [show sinceStart ([startMessage, tradeMessage 100] ++ [tradeMessage 200])
          = [tradeMessage 100, tradeMessage 200] from rfl,
        show (tradeAt 200).symbol = 1 from rfl, htwo]
      decide
  apply vwapSinceStart_of_allFresh
  refine forall_split_cons ?_ (forall_split_cons ?_ (forall_split_cons ?_ forall_split_nil))
  · intro t ht
    rw [receivedTick_start] at ht
    cases ht
  · intro t ht
    obtain rfl := Option.some.inj ((receivedTick_trade 100).symm.trans ht)
    exact hfirst
  · intro t ht
    obtain rfl := Option.some.inj ((receivedTick_trade 200).symm.trans ht)
    exact hsecond

end Hedge.Features
