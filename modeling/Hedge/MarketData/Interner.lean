import Hedge.Bus
import Hedge.Core.Market

/-!
# Symbol ids of the market data engine

Reference: `hedge-market-data/src/interner.rs`, `hedge-market-data/src/normalizer.rs`,
`hedge-bus/src/symbol_table.rs`.

The market data engine numbers symbols in the order of their first arrival, the other services by a
fixed table. The numbering is kept as the list of the symbols seen so far; the interner holds for a
symbol its place in that list. One task interns at a time.
-/

namespace Hedge.MarketData

open Hedge Hedge.Common Hedge.Bus

/-! ## Model -/

/-- `SymbolInterner`. -/
structure SymbolInterner where
  map : Map String SymbolId
  next : UInt32

namespace SymbolInterner

/-- The empty interner; zero stays free as a sentinel. -/
def new : SymbolInterner := ⟨∅, 1⟩

/-- `intern`. The counter wraps around. -/
def intern (i : SymbolInterner) (sym : String) : SymbolId × SymbolInterner :=
  match i.map.lookup sym with
  | some existing => (existing, i)
  | none => (⟨i.next⟩, ⟨i.map.insert sym ⟨i.next⟩, i.next + 1⟩)

end SymbolInterner

/-- `RawTick`. -/
structure RawTick where
  symbol : String
  ltpPaise : Int64
  bidPaise : Int64
  askPaise : Int64
  ltq : UInt64
  totalBuyQty : UInt64
  totalSellQty : UInt64
  tsExchangeMs : UInt64

/-- A raw tick with what is read while it is normalized: its exchange, its correlation id and the
clock. -/
structure Arrival where
  raw : RawTick
  exchange : Int8
  correlationId : CorrelationId
  nowNs : UInt64

/-- The tick of an arrival under an id. -/
def Arrival.tick (a : Arrival) (symbolId : SymbolId) : Tick where
  correlationId := Vector.ofFn fun i => a.correlationId.toBeBytes.getD i.val 0
  symbol := symbolId.raw
  exchange := a.exchange
  ltpPaise := a.raw.ltpPaise
  bidPaise := a.raw.bidPaise
  askPaise := a.raw.askPaise
  ltq := a.raw.ltq
  totalBuyQty := a.raw.totalBuyQty
  totalSellQty := a.raw.totalSellQty
  tsExchangeNs := UInt64.ofNat (min (a.raw.tsExchangeMs.toNat * 1000000) (2 ^ 64 - 1))
  tsRecvNs := a.nowNs

/-- `normalize_with_correlation`. -/
def normalizeWithCorrelation (i : SymbolInterner) (a : Arrival) : Tick × SymbolInterner :=
  (a.tick (i.intern a.raw.symbol).1, (i.intern a.raw.symbol).2)

/-- The ticks of a run. -/
def normalizeAll (i : SymbolInterner) : List Arrival → List Tick
  | [] => []
  | a :: arrivals =>
    (normalizeWithCorrelation i a).1 :: normalizeAll (normalizeWithCorrelation i a).2 arrivals

/-! ## Purpose -/

/-- The id is that of the table, or one the table does not have for a symbol it does not have. -/
def RightId (sym : String) (id : UInt32) : Prop :=
  (symbolIdFor sym ≠ 0 → id = symbolIdFor sym) ∧ (symbolIdFor sym = 0 → symbolForId id = none)

/-- Every tick of a run carries the right id. -/
def IdsAgree (arrivals : List Arrival) : Prop :=
  List.Forall₂ (fun a tick => RightId a.raw.symbol tick.symbol) arrivals
    (normalizeAll .new arrivals)

/-- The symbols of the table in the order of their ids. -/
def tableSymbols : List String :=
  ["RELIANCE", "INFY", "SBIN", "HDFCBANK", "ICICIBANK", "NSE_INDEX|Nifty 50",
    "NSE_INDEX|Nifty Bank", "NSE_INDEX|Nifty Next 50", "NSE_INDEX|Nifty Fin Service",
    "NSE_INDEX|Nifty 100"]

/-! ## First arrivals -/

section Arrivals

variable {α : Type*} [DecidableEq α]

/-- The list of what was seen, with one more. -/
def arrive (seen : List α) (x : α) : List α := if x ∈ seen then seen else seen ++ [x]

/-- The different elements of a list in the order of their first occurrence. -/
def firstArrivals (xs : List α) : List α := xs.foldl arrive []

theorem mem_arrive {seen : List α} {x y : α} : y ∈ arrive seen x ↔ y ∈ seen ∨ y = x := by
  unfold arrive
  split_ifs with h
  · refine ⟨.inl, ?_⟩
    rintro (hy | rfl)
    · exact hy
    · exact h
  · simp

theorem nodup_arrive {seen : List α} (h : seen.Nodup) (x : α) : (arrive seen x).Nodup := by
  unfold arrive
  split_ifs with hx
  · exact h
  · rw [← List.concat_eq_append]
    exact h.concat hx

/-- What was seen keeps its place. -/
theorem idxOf_arrive {seen : List α} {y : α} (hy : y ∈ seen) (x : α) :
    (arrive seen x).idxOf y = seen.idxOf y := by
  unfold arrive
  split_ifs
  · rfl
  · exact List.idxOf_append_of_mem hy

theorem idxOf_foldl_arrive {seen : List α} {y : α} (hy : y ∈ seen) (xs : List α) :
    (xs.foldl arrive seen).idxOf y = seen.idxOf y := by
  induction xs generalizing seen with
  | nil => rfl
  | cons x xs ih => rw [List.foldl_cons, ih (mem_arrive.mpr (.inl hy)), idxOf_arrive hy]

theorem mem_foldl_arrive {seen : List α} {y : α} (xs : List α) :
    y ∈ xs.foldl arrive seen ↔ y ∈ seen ∨ y ∈ xs := by
  induction xs generalizing seen with
  | nil => simp
  | cons x xs ih => rw [List.foldl_cons, ih, mem_arrive, List.mem_cons, or_assoc]

theorem nodup_foldl_arrive {seen : List α} (h : seen.Nodup) (xs : List α) :
    (xs.foldl arrive seen).Nodup := by
  induction xs generalizing seen with
  | nil => exact h
  | cons x xs ih => exact ih (nodup_arrive h x)

end Arrivals

/-! ## The interner numbers arrivals -/

/-- The interner holds the numbering of the symbols seen. -/
structure Numbers (i : SymbolInterner) (seen : List String) : Prop where
  next : i.next = UInt32.ofNat (seen.length + 1)
  lookup : ∀ sym, i.map.lookup sym =
    if sym ∈ seen then some ⟨UInt32.ofNat (seen.idxOf sym + 1)⟩ else none

theorem numbers_new : Numbers .new [] := ⟨rfl, fun _ => rfl⟩

/-- One call returns the place of its symbol and keeps the numbering. -/
theorem Numbers.intern {i : SymbolInterner} {seen : List String} (h : Numbers i seen)
    (sym : String) :
    (i.intern sym).1 = ⟨UInt32.ofNat ((arrive seen sym).idxOf sym + 1)⟩ ∧
      Numbers (i.intern sym).2 (arrive seen sym) := by
  by_cases hseen : sym ∈ seen
  · have hlookup := h.lookup sym
    rw [if_pos hseen] at hlookup
    simp only [SymbolInterner.intern, hlookup, arrive, if_pos hseen]
    exact ⟨trivial, h⟩
  · have hlookup := h.lookup sym
    rw [if_neg hseen] at hlookup
    simp only [SymbolInterner.intern, hlookup, arrive, if_neg hseen]
    have hlast : (seen ++ [sym]).idxOf sym = seen.length := by
      rw [List.idxOf_append_of_notMem hseen, List.idxOf_cons_self, Nat.add_zero]
    refine ⟨by rw [hlast, h.next], ?_, fun other => ?_⟩
    · rw [h.next, List.length_append]
      simp [UInt32.ofNat_add]
    · by_cases heq : other = sym
      · subst heq
        rw [AList.lookup_insert, if_pos (by simp), hlast, h.next]
      · rw [AList.lookup_insert_ne heq, h.lookup other]
        by_cases hother : other ∈ seen
        · rw [if_pos hother, if_pos (by simp [hother]), List.idxOf_append_of_mem hother]
        · rw [if_neg hother, if_neg (by simp [hother, heq])]

/-- The ticks of a run carry the places of their symbols. -/
theorem Numbers.normalizeAll_eq {i : SymbolInterner} {seen : List String} (h : Numbers i seen)
    (arrivals : List Arrival) :
    normalizeAll i arrivals = arrivals.map fun a => a.tick ⟨UInt32.ofNat
      (((arrivals.map fun b => b.raw.symbol).foldl arrive seen).idxOf a.raw.symbol + 1)⟩ := by
  induction arrivals generalizing i seen with
  | nil => rfl
  | cons a arrivals ih =>
    obtain ⟨hid, hnext⟩ := h.intern a.raw.symbol
    have hmem : a.raw.symbol ∈ arrive seen a.raw.symbol := mem_arrive.mpr (.inr rfl)
    rw [normalizeAll, normalizeWithCorrelation, ih hnext, hid, List.map_cons, List.map_cons,
      List.foldl_cons, idxOf_foldl_arrive hmem]

/-! ## The table -/

/-- The id of a symbol is its place in the table. -/
theorem symbolIdFor_ne_zero_iff (sym : String) : symbolIdFor sym ≠ 0 ↔ sym ∈ tableSymbols := by
  unfold symbolIdFor
  split <;> simp_all [tableSymbols]

theorem symbolForId_of_large {id : UInt32} (h : 10 < id.toNat) : symbolForId id = none := by
  unfold symbolForId
  split <;> first | rfl | exact absurd h (by decide)

theorem symbolForId_ofNat {k : ℕ} (h : k < 2 ^ 32) :
    symbolForId (UInt32.ofNat (k + 1)) = tableSymbols[k]? := by
  by_cases hk : k < 10
  · have hall : ∀ k < 10, symbolForId (UInt32.ofNat (k + 1)) = tableSymbols[k]? := by decide
    exact hall k hk
  · have hnone : tableSymbols[k]? = none := List.getElem?_eq_none (by simpa [tableSymbols] using hk)
    rw [hnone]
    by_cases hwrap : k + 1 = 2 ^ 32
    · -- The counter has come around to the sentinel.
      rw [hwrap]
      decide
    · refine symbolForId_of_large ?_
      rw [UInt32.toNat_ofNat', Nat.mod_eq_of_lt (by omega)]
      omega

theorem symbolIdFor_of_symbolForId {id : UInt32} {sym : String} (h : symbolForId id = some sym) :
    symbolIdFor sym = id := by
  unfold symbolForId at h
  split at h <;> cases h <;> rfl

/-- An id is right if it leads back to the symbol, or nowhere for a symbol the table lacks. -/
theorem rightId_iff (sym : String) (id : UInt32) :
    RightId sym id ↔ symbolForId id = if sym ∈ tableSymbols then some sym else none := by
  unfold RightId
  by_cases hknown : sym ∈ tableSymbols
  · have hid := (symbolIdFor_ne_zero_iff sym).mpr hknown
    rw [if_pos hknown]
    constructor
    · rintro ⟨hright, -⟩
      rw [hright hid]
      exact symbolForId_symbolIdFor hid
    · intro hback
      exact ⟨fun _ => (symbolIdFor_of_symbolForId hback).symm, fun hzero => absurd hzero hid⟩
  · have hid : symbolIdFor sym = 0 := by
      by_contra hne
      exact hknown ((symbolIdFor_ne_zero_iff sym).mp hne)
    rw [if_neg hknown]
    exact ⟨fun h => h.2 hid, fun h => ⟨fun hne => absurd hid hne, fun _ => h⟩⟩

/-! ## Agreement -/

/-- Before the counter comes around, a place is right if the table has the symbol there, or has
neither. -/
theorem rightId_place_iff {sym : String} {k : ℕ} (hk : k < 2 ^ 32) :
    RightId sym (UInt32.ofNat (k + 1)) ↔
      tableSymbols[k]? = if sym ∈ tableSymbols then some sym else none := by
  rw [rightId_iff, symbolForId_ofNat hk]

theorem getElem?_tableSymbols_of_ge {k : ℕ} (h : ¬ k < 10) : tableSymbols[k]? = none :=
  List.getElem?_eq_none (by simpa [tableSymbols] using h)

/-- A right place below ten holds the symbol of the table. -/
theorem getElem?_of_rightId {seen : List String} {k : ℕ} (hk : k < seen.length) (hten : k < 10)
    (h : RightId seen[k] (UInt32.ofNat (k + 1))) : seen[k]? = tableSymbols[k]? := by
  rw [rightId_place_iff (by omega)] at h
  have htable : tableSymbols[k]? = some (tableSymbols.get ⟨k, hten⟩) := List.getElem?_eq_getElem hten
  rw [List.getElem?_eq_getElem hk]
  split_ifs at h with hknown
  · exact h.symm
  · rw [htable] at h
    cases h

/-- Places are right exactly if the list starts with the table and the counter does not come
around. -/
theorem places_right_iff {seen : List String} (hnodup : seen.Nodup) :
    (∀ k (hk : k < seen.length), RightId seen[k] (UInt32.ofNat (k + 1))) ↔
      seen.take 10 = tableSymbols.take seen.length ∧ seen.length ≤ 2 ^ 32 := by
  constructor
  · intro h
    refine ⟨List.ext_getElem? fun k => ?_, ?_⟩
    · rw [List.getElem?_take, List.getElem?_take]
      by_cases hten : k < 10
      · by_cases hk : k < seen.length
        · rw [if_pos hten, if_pos hk]
          exact getElem?_of_rightId hk hten (h k hk)
        · rw [if_pos hten, if_neg hk, List.getElem?_eq_none (Nat.not_lt.mp hk)]
      · rw [if_neg hten, getElem?_tableSymbols_of_ge hten, ite_self]
    · -- The symbol after the last id would have to be the first one again.
      by_contra hlen
      have hlast : 2 ^ 32 < seen.length := Nat.not_le.mp hlen
      have hfirst := getElem?_of_rightId (by omega) (by decide) (h 0 (by omega))
      have hagain := (rightId_iff _ _).mp (h (2 ^ 32) hlast)
      have hone : symbolForId (UInt32.ofNat (2 ^ 32 + 1)) = some "RELIANCE" := by decide
      rw [hone] at hagain
      split_ifs at hagain with hknown
      have hsame : seen[0]? = seen[2 ^ 32]? := by
        rw [hfirst, List.getElem?_eq_getElem hlast, ← hagain]
        rfl
      exact absurd ((List.getElem?_inj (by omega) hnodup).mp hsame) (by decide)
  · rintro ⟨hstart, hlen⟩ k hk
    rw [rightId_place_iff (by omega)]
    by_cases hten : k < 10
    · have hget := congrArg (fun xs => xs[k]?) hstart
      simp only [List.getElem?_take, if_pos hten, if_pos hk, List.getElem?_eq_getElem hk] at hget
      rw [if_pos (List.mem_of_getElem? hget.symm), ← hget]
    · have hunknown : seen[k] ∉ tableSymbols := by
        intro hmem
        obtain ⟨j, hj⟩ := List.mem_iff_getElem?.mp hmem
        have hjten : j < 10 := by
          by_contra hge
          rw [getElem?_tableSymbols_of_ge hge] at hj
          cases hj
        have hjlen : j < seen.length := by omega
        have hget := congrArg (fun xs => xs[j]?) hstart
        simp only [List.getElem?_take, if_pos hjten, if_pos hjlen, hj] at hget
        rw [← List.getElem?_eq_getElem hk] at hget
        have hsame := (List.getElem?_inj hjlen hnodup).mp hget
        omega
      rw [if_neg hunknown, getElem?_tableSymbols_of_ge hten]

/-- The symbols of a run in the order of their first arrival. -/
def symbolsByArrival (arrivals : List Arrival) : List String :=
  firstArrivals (arrivals.map fun a => a.raw.symbol)

/-- The ids of a run agree with the table exactly if the first ten symbols to arrive are those of
the table in its order, as far as they go, and no more than `2 ^ 32` symbols arrive. -/
theorem idsAgree_iff (arrivals : List Arrival) :
    IdsAgree arrivals ↔
      (symbolsByArrival arrivals).take 10
          = tableSymbols.take (symbolsByArrival arrivals).length ∧
        (symbolsByArrival arrivals).length ≤ 2 ^ 32 := by
  have hnodup : (symbolsByArrival arrivals).Nodup := nodup_foldl_arrive List.nodup_nil _
  rw [← places_right_iff hnodup, IdsAgree, numbers_new.normalizeAll_eq, List.forall₂_map_right_iff,
    List.forall₂_same]
  constructor
  · intro h k hk
    obtain ⟨a, ha, hsym⟩ : ∃ a ∈ arrivals, a.raw.symbol = (symbolsByArrival arrivals)[k] := by
      have hmem := (mem_foldl_arrive _).mp (List.getElem_mem hk)
      simpa using hmem
    have hright := h a ha
    rw [hsym] at hright
    rwa [show ((arrivals.map fun b => b.raw.symbol).foldl arrive []).idxOf
      (symbolsByArrival arrivals)[k] = k from hnodup.idxOf_getElem k hk] at hright
  · intro h a ha
    have hmem : a.raw.symbol ∈ symbolsByArrival arrivals :=
      (mem_foldl_arrive _).mpr (.inr (List.mem_map_of_mem ha))
    have hright := h _ (List.idxOf_lt_length_of_mem hmem)
    rwa [List.getElem_idxOf] at hright

/-- A raw tick of a symbol the table does not have. -/
def unlistedArrival : Arrival :=
  ⟨⟨"TCS", 350000, 349950, 350050, 100, 5000, 4500, 1700000000000⟩, 0, ⟨1⟩, 1⟩

/-- The first symbol to arrive is taken for RELIANCE. -/
theorem unlistedArrival_mistaken :
    (normalizeAll .new [unlistedArrival]).map (fun tick => symbolForId tick.symbol)
      = [some "RELIANCE"] ∧ ¬ ∀ arrivals, IdsAgree arrivals := by
  refine ⟨by decide, fun h => ?_⟩
  have hright := (List.forall₂_cons.mp (h [unlistedArrival])).1
  exact absurd (hright.2 (by decide)) (by decide)

end Hedge.MarketData
