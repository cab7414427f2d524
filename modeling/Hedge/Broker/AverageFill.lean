import Hedge.Broker.SimulatedOrders
import Hedge.Common.CostBasis

/-!
# The average of a simulated order

Reference: `hedge-broker-simulated/src/lifecycle.rs`, `hedge-broker-simulated/src/orderbook.rs`.

`apply_fills` keeps the filled quantity and the average, and rebuilds the notional of the earlier
fills from the average. The average is truncated, so the rebuilt notional is short by the remainder
of the division, and the splitting of the same fills into batches matters: the order shows
`vwap_paise` of its fills exactly as long as no batch makes that remainder smaller
(`averagesFills_iff`).
-/

namespace Hedge.Broker.Simulated

open Hedge Hedge.Common Hedge.BrokerApi

/-- `vwap_paise`: the total quantity of the fills and their volume-weighted average price. -/
def vwapPaise (fills : List BookLevel) : UInt64 × Int64 :=
  let totalQty : ℤ := fills.foldl (fun total f => min (total + f.qty.toNat) (2 ^ 128 - 1)) 0
  let totalNotional := fills.foldl (fun notional f =>
    clampI128 (notional + clampI128 (f.pricePaise.toInt * f.qty.toNat))) 0
  if totalQty = 0 then (0, 0)
  else
    let vwap := totalNotional.tdiv (totalQty.bmod (2 ^ 128))
    let qtyClamped :=
      if 2 ^ 64 - 1 < totalQty then UInt64.ofNat (2 ^ 64 - 1) else UInt64.ofNat totalQty.toNat
    (qtyClamped, Int64.clamp vwap)

/-! ## Totals -/

/-- What the fills cost. -/
def notionalOf (fills : List BookLevel) : ℕ :=
  (fills.map fun f => f.pricePaise.toInt.toNat * f.qty.toNat).sum

/-- What the truncated average of the fills leaves out of their notional. -/
def remainderOf (fills : List BookLevel) : ℕ := notionalOf fills % totalQty fills

/-- No fill has a negative price. -/
def Priced (fills : List BookLevel) : Prop := ∀ f ∈ fills, 0 ≤ f.pricePaise.toInt

theorem totalQty_append (xs ys : List BookLevel) :
    totalQty (xs ++ ys) = totalQty xs + totalQty ys := by
  simp [totalQty]

theorem notionalOf_append (xs ys : List BookLevel) :
    notionalOf (xs ++ ys) = notionalOf xs + notionalOf ys := by
  simp [notionalOf]

/-- No fill costs more than the highest price an `i64` holds. -/
theorem notionalOf_le (fills : List BookLevel) :
    notionalOf fills ≤ (2 ^ 63 - 1) * totalQty fills := by
  rw [notionalOf, totalQty, ← List.sum_map_mul_left]
  apply List.sum_le_sum
  intro f _
  have hprice := f.pricePaise.toInt_lt
  exact Nat.mul_le_mul_right _ (by omega)

theorem average_le (total size : ℕ) (h : total ≤ (2 ^ 63 - 1) * size) : total / size ≤ 2 ^ 63 - 1 :=
  Nat.div_le_of_le_mul (by rwa [Nat.mul_comm])

/-! ## The two computations -/

/-- Adding the fills to a notional that leaves room for them saturates nowhere. -/
theorem foldl_notional {fills : List BookLevel} (hpriced : Priced fills) (start : ℕ)
    (hfits : start + notionalOf fills < 2 ^ 127) :
    fills.foldl (fun notional f =>
        clampI128 (notional + clampI128 (f.pricePaise.toInt * f.qty.toNat))) (start : ℤ)
      = ((start + notionalOf fills : ℕ) : ℤ) := by
  have hcost : ∀ f ∈ fills, ((f.pricePaise.toInt.toNat * f.qty.toNat : ℕ) : ℤ)
      = f.pricePaise.toInt * f.qty.toNat := by
    intro f hf
    rw [Nat.cast_mul, Int.toNat_of_nonneg (hpriced f hf)]
  have hsum : (fills.map fun f => ((f.pricePaise.toInt.toNat * f.qty.toNat : ℕ) : ℤ)).sum
      = notionalOf fills := by
    rw [notionalOf, Nat.cast_list_sum, List.map_map]
    rfl
  rw [foldl_eq_add_sum (2 ^ 127 - 1) (fun f _ => Int.natCast_nonneg _) ?_
    (Int.natCast_nonneg start) (by rw [hsum]; omega), hsum, Nat.cast_add]
  intro n f hf hn hle
  rw [hcost f hf] at hle ⊢
  have hpos : 0 ≤ f.pricePaise.toInt * (f.qty.toNat : ℤ) := by
    rw [← hcost f hf]
    exact Int.natCast_nonneg _
  generalize f.pricePaise.toInt * (f.qty.toNat : ℤ) = cost at hpos hle ⊢
  unfold clampI128
  omega

theorem foldl_total {fills : List BookLevel} (hfits : totalQty fills < 2 ^ 64) :
    fills.foldl (fun total f => min (total + (f.qty.toNat : ℤ)) (2 ^ 128 - 1)) 0
      = (totalQty fills : ℤ) := by
  rw [foldl_eq_add_sum (2 ^ 64 - 1) (fun f _ => Int.natCast_nonneg _) ?_ le_rfl
    (by rw [sum_qty]; omega), sum_qty, zero_add]
  intro n f _ _ hle
  omega

/-- `vwap_paise` is the exact total and the truncated average. -/
theorem vwapPaise_eq {fills : List BookLevel} (hpriced : Priced fills)
    (hfits : totalQty fills < 2 ^ 64) :
    (vwapPaise fills).1.toNat = totalQty fills ∧
      (vwapPaise fills).2.toInt = ((notionalOf fills / totalQty fills : ℕ) : ℤ) := by
  have hcost := notionalOf_le fills
  have hnotional := foldl_notional hpriced 0 (by omega)
  rw [Nat.cast_zero, zero_add] at hnotional
  simp only [vwapPaise, foldl_total hfits, hnotional]
  by_cases hzero : totalQty fills = 0
  · simp [hzero]
  · have hden : ((totalQty fills : ℤ)).bmod (2 ^ 128) = totalQty fills := by
      apply Int.bmod_eq_of_le <;> omega
    have havg := average_le _ _ hcost
    rw [if_neg (by omega), if_neg (by omega), hden]
    dsimp only
    rw [Int.toNat_natCast, UInt64.toNat_ofNat', Nat.mod_eq_of_lt hfits, Int64.toInt_clamp,
      Int.tdiv_eq_ediv_of_nonneg (by omega), ← Int.natCast_ediv]
    generalize notionalOf fills / totalQty fills = avg at havg ⊢
    refine ⟨rfl, ?_⟩
    omega

variable {record : OrderRecord} {fills : List BookLevel} {qty avg : ℕ}

/-- One batch on a record that shows a quantity and an average: the notional is resumed from their
product. -/
theorem applyFills_eq (hqty : record.filledQty.toNat = qty) (havg : record.avgFillPaise.toInt = avg)
    (hpriced : Priced fills) (hfits : qty + totalQty fills < 2 ^ 64) (hnil : fills ≠ [])
    (tsNs : UInt64) :
    (record.applyFills fills tsNs).filledQty.toNat = qty + totalQty fills ∧
      (record.applyFills fills tsNs).avgFillPaise.toInt
        = (((avg * qty + notionalOf fills) / (qty + totalQty fills) : ℕ) : ℤ) := by
  have hcost := notionalOf_le fills
  have hprior : avg * qty ≤ (2 ^ 63 - 1) * qty := by
    have hmax := record.avgFillPaise.toInt_lt
    exact Nat.mul_le_mul_right _ (by omega)
  have hmean := average_le (avg * qty + notionalOf fills) (qty + totalQty fills) (by omega)
  -- the saturating product is exact: both factors fit in 64 bits
  have hstart : clampI128 ((avg : ℤ) * qty) = ((avg * qty : ℕ) : ℤ) := by
    rw [← Nat.cast_mul, clampI128]
    omega
  simp only [OrderRecord.applyFills, if_neg hnil, hqty, havg, hstart, foldl_qty fills qty hfits,
    foldl_notional hpriced (avg * qty) (by omega)]
  rw [if_neg (by omega), Int.toNat_natCast]
  have hnew : (UInt64.ofNat (qty + totalQty fills)).toNat = qty + totalQty fills := by
    rw [UInt64.toNat_ofNat', Nat.mod_eq_of_lt hfits]
  refine ⟨hnew, ?_⟩
  by_cases hzero : qty + totalQty fills = 0
  · rw [hzero, Nat.div_zero]
    rfl
  · have hne : UInt64.ofNat (qty + totalQty fills) ≠ 0 := by
      rw [Ne, ← UInt64.toNat_inj, hnew]
      exact hzero
    rw [if_neg hne, Int64.toInt_clamp, Int.tdiv_eq_ediv_of_nonneg (by omega), ← Int.natCast_ediv]
    generalize (avg * qty + notionalOf fills) / (qty + totalQty fills) = mean at hmean ⊢
    omega

/-! ## Batches -/

/-- The record after the batches, each with its time. -/
def afterBatches (record : OrderRecord) (batches : List (List BookLevel × UInt64)) : OrderRecord :=
  batches.foldl (fun record batch => record.applyFills batch.1 batch.2) record

/-- The fills of the batches, one after the other. -/
def fillsOf (batches : List (List BookLevel × UInt64)) : List BookLevel := batches.flatMap Prod.fst

/-- The record shows the total and the average of the fills. -/
def OrderRecord.Shows (record : OrderRecord) (fills : List BookLevel) : Prop :=
  record.filledQty = (vwapPaise fills).1 ∧ record.avgFillPaise = (vwapPaise fills).2

/-- After each batch the record shows the total and the average of all fills so far. -/
def AveragesFills (record : OrderRecord) (batches : List (List BookLevel × UInt64)) : Prop :=
  ∀ pre post, batches = pre ++ post → (afterBatches record pre).Shows (fillsOf pre)

/-- No batch makes the remainder of the average smaller. -/
def RemaindersGrow (batches : List (List BookLevel × UInt64)) : Prop :=
  ∀ pre batch post, batches = pre ++ batch :: post →
    remainderOf (fillsOf pre) ≤ remainderOf (fillsOf (pre ++ [batch]))

theorem shows_iff (hpriced : Priced fills) (hfits : totalQty fills < 2 ^ 64) :
    record.Shows fills ↔ record.filledQty.toNat = totalQty fills ∧
      record.avgFillPaise.toInt = ((notionalOf fills / totalQty fills : ℕ) : ℤ) := by
  obtain ⟨hqty, havg⟩ := vwapPaise_eq hpriced hfits
  rw [OrderRecord.Shows, ← UInt64.toNat_inj, ← Int64.toInt_inj, hqty, havg]

/-- A batch leaves the record right exactly when it does not make the remainder smaller. -/
theorem shows_applyFills_iff {seen : List BookLevel} (hshows : record.Shows seen)
    (hpriced : Priced (seen ++ fills)) (hfits : totalQty (seen ++ fills) < 2 ^ 64) (tsNs : UInt64) :
    (record.applyFills fills tsNs).Shows (seen ++ fills) ↔
      remainderOf seen ≤ remainderOf (seen ++ fills) := by
  obtain ⟨hseen, hbatch⟩ := List.forall_mem_append.mp hpriced
  rw [totalQty_append] at hfits
  obtain ⟨hqty, havg⟩ := (shows_iff hseen (by omega)).mp hshows
  by_cases hnil : fills = []
  · subst hnil
    have hsame : (record.applyFills [] tsNs).Shows seen := by
      rw [OrderRecord.applyFills, if_pos rfl]
      split_ifs <;> exact hshows
    rw [List.append_nil]
    exact iff_of_true hsame le_rfl
  obtain ⟨hqty', havg'⟩ := applyFills_eq hqty havg hbatch hfits hnil tsNs
  rw [shows_iff hpriced (by rwa [totalQty_append]), hqty', havg', remainderOf, remainderOf,
    notionalOf_append, totalQty_append, Nat.cast_inj, and_iff_right rfl]
  by_cases hzero : totalQty seen + totalQty fills = 0
  · -- a record without quantity has no notional either, so both averages are zero
    have hcost := notionalOf_le seen
    have hnone : totalQty seen = 0 := by omega
    have hfree : notionalOf seen = 0 := by
      rw [hnone] at hcost
      omega
    have hmore : totalQty fills = 0 := by omega
    simp [hnone, hfree, hmore]
  · exact average_resume_iff (notionalOf fills) (by omega)

theorem fillsOf_cons (batch : List BookLevel × UInt64) (batches : List (List BookLevel × UInt64)) :
    fillsOf (batch :: batches) = batch.1 ++ fillsOf batches := rfl

/-- From a record that shows the fills `seen`. -/
theorem shows_afterBatches_iff {batches : List (List BookLevel × UInt64)} {seen : List BookLevel}
    (hshows : record.Shows seen) (hpriced : Priced (seen ++ fillsOf batches))
    (hfits : totalQty (seen ++ fillsOf batches) < 2 ^ 64) :
    (∀ pre post, batches = pre ++ post → (afterBatches record pre).Shows (seen ++ fillsOf pre)) ↔
      ∀ pre batch post, batches = pre ++ batch :: post →
        remainderOf (seen ++ fillsOf pre) ≤ remainderOf (seen ++ fillsOf (pre ++ [batch])) := by
  induction batches generalizing record seen with
  | nil =>
    refine iff_of_true (fun pre post hsplit => ?_) forall_split_nil
    obtain ⟨rfl, -⟩ := List.append_eq_nil_iff.mp hsplit.symm
    simpa [fillsOf, afterBatches] using hshows
  | cons batch batches ih =>
    rw [fillsOf_cons, ← List.append_assoc] at hpriced hfits
    have hbatch : Priced (seen ++ batch.1) := (List.forall_mem_append.mp hpriced).1
    have hfitsBatch : totalQty (seen ++ batch.1) < 2 ^ 64 := by
      rw [totalQty_append] at hfits
      omega
    have hstep := shows_applyFills_iff hshows hbatch hfitsBatch batch.2
    rw [forall_prefix_cons_iff, forall_split_cons_iff]
    simp only [List.cons_append, fillsOf_cons, ← List.append_assoc]
    have hhead : fillsOf [] = [] := rfl
    simp only [hhead, List.append_nil, List.nil_append, fillsOf_cons]
    constructor
    · rintro ⟨-, hrest⟩
      -- the induction goes on from the record after the batch, if that is right
      have hnext : (record.applyFills batch.1 batch.2).Shows (seen ++ batch.1) := by
        simpa [hhead, afterBatches] using hrest [] batches rfl
      exact ⟨hstep.mp hnext, (ih hnext hpriced hfits).mp hrest⟩
    · rintro ⟨hgrows, hrest⟩
      exact ⟨hshows, (ih (hstep.mpr hgrows) hpriced hfits).mpr hrest⟩

/-- After every batch on an order the quantity and the average are those of all its fills exactly
when the remainder of the average never gets smaller from one batch to the next. -/
theorem averagesFills_iff (id : String) (intent : BrokerApi.OrderIntent) (tsNs : UInt64)
    (batches : List (List BookLevel × UInt64)) (hpriced : Priced (fillsOf batches))
    (hfits : totalQty (fillsOf batches) < 2 ^ 64) :
    AveragesFills (OrderRecord.new id intent tsNs) batches ↔ RemaindersGrow batches := by
  have hnew : (OrderRecord.new id intent tsNs).Shows [] := ⟨rfl, rfl⟩
  exact shows_afterBatches_iff hnew hpriced hfits

/-- An order for three, filled with two and then one. -/
def orderOfThree : BrokerApi.OrderIntent := ⟨⟨1⟩, 1, .buy, 3, .market, 0, .nse⟩

/-- Fills at 100, 101 and 99 paise in two batches. -/
def splitFills : List (List BookLevel × UInt64) := [([⟨100, 1⟩, ⟨101, 1⟩], 1), ([⟨99, 1⟩], 2)]

theorem averagesFills_iff_splitFills :
    AveragesFills (OrderRecord.new "SIM-1" orderOfThree 0) splitFills ↔
      RemaindersGrow splitFills :=
  averagesFills_iff "SIM-1" orderOfThree 0 splitFills (by unfold Priced; decide) (by decide)

/-- The three fills average 100 paise, and the order shows 99 after the second batch. -/
theorem not_averagesFills_splitFills :
    ¬ ∀ id intent tsNs batches, Priced (fillsOf batches) → totalQty (fillsOf batches) < 2 ^ 64 →
      notionalOf (fillsOf batches) < 2 ^ 63 →
      AveragesFills (OrderRecord.new id intent tsNs) batches := by
  intro h
  have hshows := h "SIM-1" orderOfThree 0 splitFills (by unfold Priced; decide) (by decide)
    (by decide) splitFills [] rfl
  have havg : (vwapPaise (fillsOf splitFills)).2 = 100 := by decide
  have hkept : (afterBatches (OrderRecord.new "SIM-1" orderOfThree 0) splitFills).avgFillPaise = 99 :=
    by decide
  rw [OrderRecord.Shows, havg, hkept] at hshows
  exact absurd hshows.2 (by decide)

end Hedge.Broker.Simulated
