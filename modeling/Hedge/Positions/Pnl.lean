import Hedge.Common.Machine
import Hedge.Core.Types

/-!
# Position arithmetic

Reference: `hedge-position/src/pnl.rs`, `hedge-position/src/position.rs`.

Prices are `i64` paise. The `i128` intermediate values are integers: the only one of them that can
leave the `i128` range is the numerator of the average price, which wraps as in a release build.
Quantity, average price and realised PnL form the `Ledger` of a position; a mark does not touch it.
-/

namespace Hedge.Positions

/-- Result of folding one fill into a position. -/
structure FillOutcome where
  newQuantity : Int64
  newAvgEntryPx : Int64
  deltaRealizedPaise : Int64
deriving DecidableEq, Repr

/-- `signed_fill`: the quantity of a fill with the sign of its side. -/
def signedFill (side : Side) (fillQty : UInt64) : ℤ :=
  match side with
  | .buy => fillQty.toNat
  | .sell => -fillQty.toNat

/-- `same_direction`: the fill adds to the open leg. -/
def sameDirection (oldQty : Int64) (side : Side) : Bool :=
  (decide (0 < oldQty) && side == .buy) || (decide (oldQty < 0) && side == .sell)

/-- `apply_fill_inner`. -/
def applyFillInner (oldQty oldAvg : Int64) (side : Side) (fillQty : UInt64) (fillPx : Int64) :
    FillOutcome :=
  if fillQty = 0 then ⟨oldQty, oldAvg, 0⟩
  else
    let newQty := Int64.ofInt (oldQty.toInt + signedFill side fillQty)
    let absOld : ℤ := oldQty.toInt.natAbs
    -- Case A: the position was flat.
    if oldQty = 0 then ⟨newQty, fillPx, 0⟩
    -- Case B: scaling the open leg.
    else if sameDirection oldQty side then
      let denom := absOld + fillQty.toNat
      let num := Int.bmod (absOld * oldAvg.toInt + fillQty.toNat * fillPx.toInt) (2 ^ 128)
      ⟨newQty, Int64.ofInt (num.tdiv denom), 0⟩
    -- Case C: closing, and flipping when something is left over.
    else
      let closeQty := min absOld fillQty.toNat
      let realized :=
        if 0 < oldQty then (fillPx.toInt - oldAvg.toInt) * closeQty
        else (oldAvg.toInt - fillPx.toInt) * closeQty
      if fillQty.toNat - closeQty = 0 then
        ⟨newQty, if newQty = 0 then 0 else oldAvg, Int64.ofInt realized⟩
      else ⟨newQty, fillPx, Int64.ofInt realized⟩

/-- `unrealized_pnl_paise`. -/
def unrealizedPnlPaise (qty avgEntryPx markPx : Int64) : Int64 :=
  if qty = 0 ∨ markPx = 0 then 0
  else Int64.ofInt ((markPx.toInt - avgEntryPx.toInt) * qty.toInt)

/-- Every fill moves the quantity by its signed amount, modulo the width of the field. -/
theorem applyFillInner_newQuantity (oldQty oldAvg : Int64) (side : Side) (fillQty : UInt64)
    (fillPx : Int64) :
    (applyFillInner oldQty oldAvg side fillQty fillPx).newQuantity
      = oldQty + Int64.ofInt (signedFill side fillQty) := by
  have hadd : Int64.ofInt (oldQty.toInt + signedFill side fillQty)
      = oldQty + Int64.ofInt (signedFill side fillQty) := by
    rw [Int64.ofInt_add, Int64.ofInt_toInt]
  unfold applyFillInner
  by_cases hzero : fillQty = 0
  · subst hzero
    cases side <;> simp [signedFill]
  · rw [if_neg hzero, ← hadd]
    dsimp only
    split_ifs <;> rfl

/-- Case A: a fill into a flat position opens a leg. -/
theorem applyFillInner_of_flat {oldQty : Int64} {fillQty : UInt64} (hqty : fillQty ≠ 0)
    (hflat : oldQty = 0) (oldAvg : Int64) (side : Side) (fillPx : Int64) :
    applyFillInner oldQty oldAvg side fillQty fillPx
      = ⟨Int64.ofInt (oldQty.toInt + signedFill side fillQty), fillPx, 0⟩ := by
  simp only [applyFillInner, if_neg hqty, if_pos hflat]

/-- Case B: a fill in the direction of the leg averages its price in. -/
theorem applyFillInner_of_same {oldQty : Int64} {side : Side} {fillQty : UInt64}
    (hqty : fillQty ≠ 0) (hopen : oldQty ≠ 0) (hsame : sameDirection oldQty side = true)
    (oldAvg fillPx : Int64) :
    applyFillInner oldQty oldAvg side fillQty fillPx
      = ⟨Int64.ofInt (oldQty.toInt + signedFill side fillQty),
          Int64.ofInt ((Int.bmod (oldQty.toInt.natAbs * oldAvg.toInt
            + fillQty.toNat * fillPx.toInt) (2 ^ 128)).tdiv
              (oldQty.toInt.natAbs + fillQty.toNat)), 0⟩ := by
  simp only [applyFillInner, if_neg hqty, if_neg hopen, if_pos hsame]

/-- Case C: a fill against the leg realises the closed part and may open the opposite leg. -/
theorem applyFillInner_of_against {oldQty : Int64} {side : Side} {fillQty : UInt64}
    (hqty : fillQty ≠ 0) (hopen : oldQty ≠ 0) (hagainst : ¬ sameDirection oldQty side = true)
    (oldAvg fillPx : Int64) :
    applyFillInner oldQty oldAvg side fillQty fillPx
      = ⟨Int64.ofInt (oldQty.toInt + signedFill side fillQty),
          if oldQty.toInt.natAbs < fillQty.toNat then fillPx
          else if Int64.ofInt (oldQty.toInt + signedFill side fillQty) = 0 then 0 else oldAvg,
          Int64.ofInt (oldQty.toInt.sign * (fillPx.toInt - oldAvg.toInt)
            * min (oldQty.toInt.natAbs : ℤ) fillQty.toNat)⟩ := by
  have hrealized : (if 0 < oldQty then
        (fillPx.toInt - oldAvg.toInt) * min (oldQty.toInt.natAbs : ℤ) fillQty.toNat
      else (oldAvg.toInt - fillPx.toInt) * min (oldQty.toInt.natAbs : ℤ) fillQty.toNat)
      = oldQty.toInt.sign * (fillPx.toInt - oldAvg.toInt)
        * min (oldQty.toInt.natAbs : ℤ) fillQty.toNat := by
    by_cases hlong : 0 < oldQty
    · have hpos : 0 < oldQty.toInt := Int64.lt_iff_toInt_lt.mp hlong
      rw [if_pos hlong, Int.sign_eq_one_of_pos hpos, one_mul]
    · have hneg : oldQty.toInt < 0 := by
        rw [Int64.lt_iff_toInt_lt, Int64.toInt_zero] at hlong
        have hne : oldQty.toInt ≠ 0 := fun h => hopen (Int64.toInt_inj.mp h)
        omega
      rw [if_neg hlong, Int.sign_eq_neg_one_of_neg hneg]
      ring
  simp only [applyFillInner, if_neg hqty, if_neg hopen, if_neg hagainst, hrealized]
  by_cases hflip : oldQty.toInt.natAbs < fillQty.toNat
  · rw [if_pos hflip, if_neg (by omega)]
  · rw [if_neg hflip, if_pos (by omega)]

/-- A buy into a book that is not short realises nothing. -/
theorem applyFillInner_delta_of_buy {oldQty : Int64} (hold : 0 ≤ oldQty) (oldAvg : Int64)
    (fillQty : UInt64) (fillPx : Int64) :
    (applyFillInner oldQty oldAvg .buy fillQty fillPx).deltaRealizedPaise = 0 := by
  by_cases hzero : fillQty = 0
  · rw [applyFillInner, if_pos hzero]
  by_cases hflat : oldQty = 0
  · rw [applyFillInner_of_flat hzero hflat]
  · have hlong : 0 < oldQty := by
      rw [Int64.lt_iff_toInt_lt, Int64.toInt_zero]
      rw [Int64.le_iff_toInt_le, Int64.toInt_zero] at hold
      have hne : oldQty.toInt ≠ 0 := fun h => hflat (Int64.toInt_inj.mp h)
      omega
    have hsame : sameDirection oldQty .buy = true := by simp [sameDirection, hlong]
    rw [applyFillInner_of_same hzero hflat hsame]

/-! ## Positions -/

/-- Per-strategy attribution of a position. -/
structure StrategyAllocation where
  strategyId : UInt8
  quantity : Int64
  allocatedCapitalInr : Int64
deriving DecidableEq, Repr

/-- Live state for a single symbol. -/
structure Position where
  symbol : SymbolId
  quantity : Int64
  avgEntryPx : Int64
  realizedPnlPaise : Int64
  unrealizedPnlPaise : Int64
  lastMarkPx : Int64
  strategyAllocations : List StrategyAllocation
deriving DecidableEq, Repr

/-- One execution report: what was done, how much of it, and at which average price. -/
structure Fill where
  side : Side
  quantity : UInt64
  px : Int64
deriving DecidableEq, Repr

/-- The part of a position that only fills move. -/
structure Ledger where
  quantity : Int64
  avgEntryPx : Int64
  realizedPnlPaise : Int64
deriving DecidableEq, Repr

/-- The ledger nothing was booked in. -/
def Ledger.empty : Ledger := ⟨0, 0, 0⟩

/-- Book one fill. -/
def Ledger.book (l : Ledger) (fill : Fill) : Ledger :=
  let outcome := applyFillInner l.quantity l.avgEntryPx fill.side fill.quantity fill.px
  ⟨outcome.newQuantity, outcome.newAvgEntryPx,
    l.realizedPnlPaise.saturatingAdd outcome.deltaRealizedPaise⟩

namespace Position

/-- A flat position. -/
def flat (symbol : SymbolId) : Position := ⟨symbol, 0, 0, 0, 0, 0, []⟩

/-- `exposure_paise`: `|qty| × avg_entry_px`, cut off at `i64::MAX`. -/
def exposurePaise (p : Position) : Int64 :=
  if p.quantity = 0 then 0
  else
    let prod := (p.quantity.toInt.natAbs : ℤ) * p.avgEntryPx.toInt
    if 2 ^ 63 - 1 < prod then Int64.maxValue else Int64.ofInt prod

/-- `apply_fill`. -/
def applyFill (p : Position) (fill : Fill) : Position :=
  let outcome := applyFillInner p.quantity p.avgEntryPx fill.side fill.quantity fill.px
  { p with
    quantity := outcome.newQuantity
    avgEntryPx := outcome.newAvgEntryPx
    realizedPnlPaise := p.realizedPnlPaise.saturatingAdd outcome.deltaRealizedPaise
    unrealizedPnlPaise :=
      Positions.unrealizedPnlPaise outcome.newQuantity outcome.newAvgEntryPx p.lastMarkPx }

/-- `apply_mark`. -/
def applyMark (p : Position) (markPx : Int64) : Position :=
  { p with
    lastMarkPx := markPx
    unrealizedPnlPaise := Positions.unrealizedPnlPaise p.quantity p.avgEntryPx markPx }

/-- The ledger of a position. -/
def ledger (p : Position) : Ledger := ⟨p.quantity, p.avgEntryPx, p.realizedPnlPaise⟩

@[simp] theorem ledger_flat (symbol : SymbolId) : (flat symbol).ledger = Ledger.empty := rfl

@[simp] theorem ledger_applyFill (p : Position) (fill : Fill) :
    (p.applyFill fill).ledger = p.ledger.book fill := rfl

/-- Folding fills into a position books them in its ledger. -/
theorem ledger_foldl_applyFill (fills : List Fill) (p : Position) :
    (fills.foldl applyFill p).ledger = fills.foldl Ledger.book p.ledger := by
  induction fills generalizing p with
  | nil => rfl
  | cons fill fills ih => rw [List.foldl_cons, ih, ledger_applyFill, List.foldl_cons]

end Position

/-! ## Tapes of fills -/

/-- Quantity a tape buys. -/
def bought (fills : List Fill) : ℕ :=
  ((fills.filter (·.side = .buy)).map (·.quantity.toNat)).sum

/-- Quantity a tape sells. -/
def sold (fills : List Fill) : ℕ :=
  ((fills.filter (·.side = .sell)).map (·.quantity.toNat)).sum

@[simp] theorem bought_nil : bought [] = 0 := rfl

@[simp] theorem sold_nil : sold [] = 0 := rfl

/-- A fill contributes its quantity to one of the two totals. -/
theorem bought_sub_sold_cons (fill : Fill) (fills : List Fill) :
    (bought (fill :: fills) : ℤ) - sold (fill :: fills)
      = signedFill fill.side fill.quantity + (bought fills - sold fills) := by
  obtain ⟨side, quantity, px⟩ := fill
  cases side <;> simp [bought, sold, signedFill] <;> ring

/-- The booked quantity is what was bought minus what was sold, modulo the width of the field. -/
theorem quantity_foldl_book (fills : List Fill) (l : Ledger) :
    (fills.foldl Ledger.book l).quantity
      = l.quantity + Int64.ofInt (bought fills - sold fills) := by
  induction fills generalizing l with
  | nil => simp
  | cons fill fills ih =>
    rw [List.foldl_cons, ih, bought_sub_sold_cons, Int64.ofInt_add, ← Int64.add_assoc]
    congr 1
    exact applyFillInner_newQuantity ..

/-- Buys that fit the field never realise anything. -/
theorem realized_foldl_book_of_buys {fills : List Fill} (hbuys : ∀ f ∈ fills, f.side = .buy)
    {l : Ledger} (hlong : 0 ≤ l.quantity.toInt)
    (hfit : l.quantity.toInt + bought fills < 2 ^ 63) :
    (fills.foldl Ledger.book l).realizedPnlPaise = l.realizedPnlPaise := by
  induction fills generalizing l with
  | nil => rfl
  | cons fill fills ih =>
    obtain ⟨side, quantity, px⟩ := fill
    obtain rfl : side = .buy := hbuys _ List.mem_cons_self
    have hbought : bought (⟨.buy, quantity, px⟩ :: fills) = quantity.toNat + bought fills := by
      simp [bought]
    rw [hbought] at hfit
    push_cast at hfit
    have hquantity : (l.book ⟨.buy, quantity, px⟩).quantity.toInt
        = l.quantity.toInt + quantity.toNat := by
      have hnew : (l.book ⟨.buy, quantity, px⟩).quantity
          = l.quantity + Int64.ofInt (quantity.toNat : ℤ) := applyFillInner_newQuantity ..
      rw [hnew, Int64.toInt_add, Int64.toInt_ofInt_of_le (by omega) (by omega)]
      exact Int.bmod_eq_of_le (by omega) (by omega)
    have hrealized : (l.book ⟨.buy, quantity, px⟩).realizedPnlPaise = l.realizedPnlPaise := by
      have hdelta := applyFillInner_delta_of_buy (Int64.le_iff_toInt_le.mpr hlong)
        l.avgEntryPx quantity px
      have hbook : (l.book ⟨.buy, quantity, px⟩).realizedPnlPaise
          = l.realizedPnlPaise.saturatingAdd 0 :=
        congrArg l.realizedPnlPaise.saturatingAdd hdelta
      rw [hbook, ← Int64.toInt_inj, Int64.toInt_saturatingAdd, Int64.toInt_zero]
      have hlo := l.realizedPnlPaise.le_toInt
      have hhi := l.realizedPnlPaise.toInt_lt
      omega
    rw [List.foldl_cons, ih (fun f hf => hbuys f (List.mem_cons_of_mem _ hf)), hrealized] <;>
      rw [hquantity] <;> omega

end Hedge.Positions
