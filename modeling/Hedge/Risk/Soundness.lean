import Hedge.Risk.Gates

/-!
# Soundness of an approval

Reference: `evaluate_inner` in `hedge-risk/src/engine.rs`.

The size, leverage and exposure gates look at the worst-case quantity, while the order carries a
quantity that is computed after them by scaling, halving, capping and flooring. `approved_limits`
closes the gap: the limits hold for the quantity of the order, in exact integers.
-/

namespace Hedge.Risk

open Hedge.Common Hedge.Core

/-! ## Sizing -/

/-- A clamped factor is a rational of the unit interval. -/
theorem clamp01_spec (v : ExactFloat) : ∃ q : ℚ, 0 ≤ q ∧ q ≤ 1 ∧ clamp01 v = .fin q := by
  cases v with
  | nan => exact ⟨0, le_refl 0, zero_le_one, rfl⟩
  | negInf => exact ⟨0, le_refl 0, zero_le_one, rfl⟩
  | posInf => exact ⟨1, zero_le_one, le_refl 1, rfl⟩
  | fin q =>
    by_cases hneg : q < 0
    · exact ⟨0, le_refl 0, zero_le_one, by simp [clamp01, ExactFloat.lt, hneg]⟩
    by_cases hbig : 1 < q
    · refine ⟨1, zero_le_one, le_refl 1, ?_⟩
      simp [clamp01, ExactFloat.isNan, ExactFloat.lt, hneg, hbig]
    · refine ⟨q, not_lt.mp hneg, not_lt.mp hbig, ?_⟩
      simp [clamp01, ExactFloat.isNan, ExactFloat.lt, hneg, hbig]

/-- Adaptive_Risk stays within the base risk per trade. -/
theorem adaptiveRiskPaise_bounds (eng : RiskEngine) (inp : EvalInput) :
    0 ≤ (adaptiveRiskPaise eng inp).toInt ∧
      (adaptiveRiskPaise eng inp).toInt ≤ eng.riskCfg.baseRiskPerTradeInr.toNat * 100 := by
  have hbase := eng.riskCfg.baseRiskPerTradeInr.toNat_lt
  obtain ⟨a, ha0, -, ha⟩ := clamp01_spec inp.warmCache.marketStability
  obtain ⟨b, hb0, -, hb⟩ := clamp01_spec
    ((inp.warmCache.tradeConfidence (.fromBeBytes inp.signal.correlationId)).getD
      inp.signal.confidence)
  obtain ⟨c, hc0, -, hc⟩ := clamp01_spec inp.warmCache.traderStability
  simp only [adaptiveRiskPaise, ha, hb, hc, ExactFloat.ofInt, ExactFloat.mul_fin,
    ExactFloat.isFinite_fin, ExactFloat.gt_fin, Bool.true_and, decide_eq_true_eq,
    Int64.toInt_fromU32_mul_hundred, ExactFloat.min_fin, ExactFloat.toIntSat]
  split
  · rename_i hpos
    -- the scaled value is positive, so the minimum with the base lies in `[0, base]`
    set m : ℚ := min (((eng.riskCfg.baseRiskPerTradeInr.toNat * 100 : ℤ) : ℚ) * a * b * c)
      ((eng.riskCfg.baseRiskPerTradeInr.toNat * 100 : ℤ) : ℚ) with hm
    have hm0 : 0 ≤ m := le_min hpos.le (by positivity)
    have hfloor0 : 0 ≤ ⌊m⌋ := Int.floor_nonneg.mpr hm0
    have hfloor : ⌊m⌋ ≤ eng.riskCfg.baseRiskPerTradeInr.toNat * 100 := by
      have := Int.floor_le_floor (min_le_right _ _ : m ≤ _)
      rwa [Int.floor_intCast] at this
    rw [ExactFloat.truncRat_of_nonneg hm0, Int64.toInt_ofInt_of_le] <;> omega
  · exact ⟨le_refl _, by positivity⟩

/-- The share count before halving, capping and flooring costs at most the risk. -/
theorem shares_mul_price_le {a price : ℤ} (hprice : 0 < price) :
    (price : ℤ) * ((a.toNat / price.toNat : ℕ) : ℤ) ≤ a.toNat := by
  have h := Nat.div_mul_le_self a.toNat price.toNat
  calc price * ((a.toNat / price.toNat : ℕ) : ℤ)
      = ((a.toNat / price.toNat * price.toNat : ℕ) : ℤ) := by
        rw [Nat.cast_mul, Int.toNat_of_nonneg hprice.le, mul_comm]
    _ ≤ a.toNat := by exact_mod_cast h

/-- The order quantity: at least one share, at most the profile's cap, and beyond one share within
the risk. -/
theorem sizedQuantity_bounds (st : RiskState) (inp : EvalInput) (a : Int64)
    (hprice : 0 < inp.entryPricePaise) :
    1 ≤ (sizedQuantity st inp a).toNat ∧
      (sizedQuantity st inp a).toNat ≤ max 1 inp.signal.riskProfile.maxSizeQty.toNat ∧
      (sizedQuantity st inp a = 1 ∨
        inp.entryPricePaise.toInt * (sizedQuantity st inp a).toNat ≤ a.toInt) := by
  have hp : 0 < inp.entryPricePaise.toInt := Int64.lt_iff_toInt_lt.mp hprice
  have ha := a.toInt_lt
  simp only [sizedQuantity, if_pos hprice]
  set n := a.toInt.toNat / inp.entryPricePaise.toInt.toNat with hn
  have hcost := shares_mul_price_le (a := a.toInt) hp
  have hlt : n < 2 ^ 64 := lt_of_le_of_lt (Nat.div_le_self _ _) (by omega)
  have hq0 : (UInt64.ofNat n).toNat = n := by rw [UInt64.toNat_ofNat', Nat.mod_eq_of_lt hlt]
  -- halving and capping only shrink the share count
  set q1 := if st.target.shouldHalve = true then UInt64.ofNat n / 2 else UInt64.ofNat n with hq1
  have hle1 : q1.toNat ≤ n := by
    rw [hq1]
    split
    · rw [UInt64.toNat_div, hq0]
      exact Nat.div_le_self _ _
    · exact hq0.le
  have hmin : (min q1 inp.signal.riskProfile.maxSizeQty).toNat
      = min q1.toNat inp.signal.riskProfile.maxSizeQty.toNat := UInt64.toNat_min _ _
  set q2 := min q1 inp.signal.riskProfile.maxSizeQty
  by_cases hz : q2 = 0
  · rw [if_pos hz]
    exact ⟨le_refl _, le_max_left _ _, .inl rfl⟩
  · rw [if_neg hz]
    have hne : q2.toNat ≠ 0 := fun h => hz (UInt64.toNat_inj.mp h)
    refine ⟨Nat.one_le_iff_ne_zero.mpr hne, by omega, .inr ?_⟩
    have hq2 : q2.toNat ≤ n := by omega
    have hpos : 0 < n := by omega
    have hrisk : 0 < a.toInt := by
      by_contra h
      rw [hn, Int.toNat_of_nonpos (not_lt.mp h), Nat.zero_div] at hpos
      exact lt_irrefl 0 hpos
    calc inp.entryPricePaise.toInt * (q2.toNat : ℤ)
        ≤ inp.entryPricePaise.toInt * (n : ℤ) := by gcongr
      _ ≤ a.toInt.toNat := hcost
      _ = a.toInt := Int.toNat_of_nonneg hrisk.le

/-! ## Exposure of the order -/

/-- The exposure gate for every quantity up to the worst case whose notional fits `i64`. The
worst-case product itself may saturate; it is then the largest `i64`, which still bounds the
notional of the order. -/
theorem exposure_le {eng : RiskEngine} {st : RiskState} {signal : Signal} {price : Int64}
    (hpos : positionBreached eng st signal = false)
    (hexp : exposureBreached eng st signal price = false) (hprice : 0 < price) {q : ℕ}
    (hq : q ≤ (prospectiveQty signal).toNat) (hfit : price.toInt * q ≤ 2 ^ 63 - 1) :
    (currentPerSymbolExposure st signal).toInt + price.toInt * q
      ≤ eng.riskCfg.maxExposurePerSymbolInr.toNat * 100 := by
  have hp : 0 < price.toInt := Int64.lt_iff_toInt_lt.mp hprice
  have hmax := eng.riskCfg.maxExposurePerSymbolInr.toNat_lt
  have hcur := (currentPerSymbolExposure st signal).le_toInt
  -- the position gate keeps the worst case below the sign bit
  have hcast : (prospectiveQty signal).toInt64.toInt = (prospectiveQty signal).toNat := by
    have hcap := eng.riskCfg.maxPositionPerSymbol.toNat_lt
    have := (positionBreached_eq_false_iff.mp hpos).1
    exact UInt64.toInt_toInt64_of_lt (by omega)
  simp only [exposureBreached, decide_eq_false_iff_not, Int64.lt_iff_toInt_lt,
    Int64.toInt_saturatingAdd, prospectiveExposure, Int64.toInt_saturatingMul, hcast,
    Int64.toInt_fromU32_mul_hundred, not_lt] at hexp
  have hprod : price.toInt * (q : ℤ) ≤ price.toInt * ((prospectiveQty signal).toNat : ℤ) := by
    gcongr
  have hnonneg : 0 ≤ price.toInt * (q : ℤ) := by positivity
  omega

/-! ## The contract -/

/-- What an approval of `q` shares promises, over exact integers. -/
structure ApprovalLimits (eng : RiskEngine) (s : RiskEngineState) (inp : EvalInput) (q : UInt64) :
    Prop where
  switchInactive : s.killSwitch.active = false
  sessionOpen : isWithinSession eng.sessionCfg inp.ist = true
  aboveLossLimit : -(eng.riskCfg.maxDailyLossInr.toNat * 100 : ℤ)
    < s.state.realizedPnlPaise.toInt + s.state.unrealizedPnlPaise.toInt
  belowDrawdown : s.state.drawdownPaise.toInt < eng.riskCfg.maxDrawdownInr.toNat * 100
  notCooling :
    CooldownRegistry.isCooling s.state.cooldowns ⟨inp.signal.symbol⟩ inp.cooldownNs = false
  notBlocked : VolatilityTable.isBlocked s.state.volatility ⟨inp.signal.symbol⟩
    eng.riskCfg.volatilityBlockThreshold = false
  targetAdmits : s.state.target.shouldReject = false
  oneLe : 1 ≤ q.toNat
  leMaxSize : q.toNat ≤ max 1 inp.signal.riskProfile.maxSizeQty.toNat
  perSymbol : (currentPerSymbol s.state inp.signal).toNat + q.toNat
    ≤ eng.riskCfg.maxPositionPerSymbol.toNat
  portfolio : s.state.portfolioPosition.toNat + q.toNat ≤ eng.riskCfg.maxPositionPortfolio.toNat
  exposure : (currentPerSymbolExposure s.state inp.signal).toInt
    + inp.entryPricePaise.toInt * q.toNat ≤ eng.riskCfg.maxExposurePerSymbolInr.toNat * 100
  risk : q = 1 ∨
    inp.entryPricePaise.toInt * q.toNat ≤ eng.riskCfg.baseRiskPerTradeInr.toNat * 100

/-- A state and an input that pass every gate approve a quantity within the limits. -/
theorem limits_of_no_gate_fails {eng : RiskEngine} {s : RiskEngineState} {inp : EvalInput}
    (hprice : 0 < inp.entryPricePaise) (hpass : ∀ g : Gate, g.fails eng s inp = false) :
    ApprovalLimits eng s inp (approvedQuantity eng s inp) := by
  have hp : 0 < inp.entryPricePaise.toInt := Int64.lt_iff_toInt_lt.mp hprice
  have hplt := inp.entryPricePaise.toInt_lt
  have hbase := eng.riskCfg.baseRiskPerTradeInr.toNat_lt
  have hadapt := (adaptiveRiskPaise_bounds eng inp).2
  obtain ⟨hone, hmax, hcost⟩ :=
    sizedQuantity_bounds s.state inp (adaptiveRiskPaise eng inp) hprice
  have hpos : positionBreached eng s.state inp.signal = false := hpass .positionSize
  obtain ⟨hsym, hport⟩ := positionBreached_eq_false_iff.mp hpos
  have hworst : (prospectiveQty inp.signal).toNat
      = max inp.signal.riskProfile.maxSizeQty.toNat 1 := UInt64.toNat_max _ _
  change 1 ≤ (approvedQuantity eng s inp).toNat at hone
  change (approvedQuantity eng s inp).toNat ≤ _ at hmax
  change approvedQuantity eng s inp = 1 ∨
    inp.entryPricePaise.toInt * (approvedQuantity eng s inp).toNat ≤ _ at hcost
  have hfit : inp.entryPricePaise.toInt * ((approvedQuantity eng s inp).toNat : ℤ)
      ≤ 2 ^ 63 - 1 := by
    rcases hcost with h | h
    · rw [h, UInt64.toNat_one]
      omega
    · omega
  exact {
    switchInactive := hpass .killSwitch
    sessionOpen := by simpa [Gate.fails] using hpass .sessionTime
    aboveLossLimit := not_le.mp fun h => by
      simpa [Gate.fails, dailyLossBreached_iff.mpr h] using hpass .dailyLoss
    belowDrawdown := not_le.mp fun h => by
      simpa [Gate.fails, drawdownBreached_iff.mpr h] using hpass .drawdown
    notCooling := hpass .slippageCooldown
    notBlocked := hpass .volatilityBlock
    targetAdmits := hpass .profitTarget
    oneLe := hone
    leMaxSize := hmax
    perSymbol := by omega
    portfolio := by omega
    exposure := exposure_le hpos (hpass .exposure) hprice (by omega) hfit
    risk := hcost.imp_right fun h => h.trans hadapt }

/-- An approval respects every limit, and a rejection names the first failing gate. -/
theorem evaluate_decision_sound (mac : Mac) (eng : RiskEngine) (s : RiskEngineState)
    (inp : EvalInput) (hprice : 0 < inp.entryPricePaise) :
    (∀ token q r, (evaluateInner mac eng s inp).1 = .approved token q r →
      ApprovalLimits eng s inp q) ∧
    (∀ reason r, (evaluateInner mac eng s inp).1 = .rejected reason r →
      ∃ pre g post, Gate.documentedOrder = pre ++ g :: post ∧ g.reason = reason ∧
        g.fails eng s inp = true ∧ ∀ g' ∈ pre, g'.fails eng s inp = false) := by
  constructor
  · intro token q r h
    obtain ⟨hpass, rfl, -⟩ := approved_inv h
    exact limits_of_no_gate_fails hprice hpass
  · intro reason r h
    have hreason := evaluateInner_rejectionReason mac eng s inp
    rw [h] at hreason
    obtain ⟨g, hfirst, hg⟩ := Option.map_eq_some_iff.mp hreason.symm
    obtain ⟨hfails, pre, post, hsplit, hpre⟩ := List.find?_eq_some_iff_append.mp hfirst
    exact ⟨pre, g, post, hsplit, hg, hfails, fun g' hg' => by simpa using hpre g' hg'⟩

/-- Eight shares at ten rupees on a fresh engine with the default limits. -/
theorem evaluate_decision_sound_default :
    0 < (makeInput 1000 1).entryPricePaise ∧
      ApprovalLimits (makeEngineWith Defaults.risk) (makeEngineWith Defaults.risk).init
        (makeInput 1000 1) 8 := by
  refine ⟨by decide, ?_⟩
  have h : (evaluateInner (fun _ _ => Vector.replicate 32 0) (makeEngineWith Defaults.risk)
      (makeEngineWith Defaults.risk).init (makeInput 1000 1)).1 = .approved (Vector.replicate 32 0)
      8 ⟨some .pass, some .pass, some .pass, some .pass, some .pass, some .pass, some .pass,
        some .pass, some .pass, some .pass, some .pass, some .pass, some .pass⟩ := by
    decide +kernel
  exact (evaluate_decision_sound _ _ _ _ (by decide)).1 _ _ _ h

end Hedge.Risk
