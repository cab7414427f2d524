import Hedge.Common.FifoMap
import Hedge.Common.FloatOps
import Hedge.Common.Machine
import Hedge.Core.Market

/-!
# The warm cache

Reference: `hedge-warmcache/src/lru.rs`, `hedge-warmcache/src/snapshot.rs`,
`hedge-warmcache/src/cache.rs`.

Rankings are kept by correlation id in a bounded map from which the oldest ids are evicted; the other
values stand in a snapshot. A ranking is read together with the time: one whose age is over the
staleness window is not returned. The clock is an argument of every operation that reads it.
-/

namespace Hedge.Warm

open Hedge Hedge.Common

/-! ## Rankings -/

/-- A ranking and the time it is stored under. -/
structure Entry where
  confidence : ExactFloat
  tsNs : UInt64
deriving DecidableEq

/-- What an entry reads at a time; a window of zero disables the staleness filter. -/
def Entry.read (stalenessNs : UInt64) (e : Entry) (nowNs : UInt64) : Option ExactFloat :=
  if 0 < stalenessNs && stalenessNs < nowNs.saturatingSub e.tsNs then none else some e.confidence

/-- `ConfidenceLru`. -/
structure ConfidenceLru where
  entries : FifoMap CorrelationId Entry
  capacity : ℕ
  stalenessNs : UInt64
  capacity_pos : 0 < capacity
  queued : entries.Queued

namespace ConfidenceLru

/-- An empty cache. -/
def new (capacity : ℕ) (stalenessNs : UInt64) (h : 0 < capacity) : ConfidenceLru :=
  ⟨.empty, capacity, stalenessNs, h, FifoMap.queued_empty⟩

/-- `insert`: only a new id makes the cache evict. -/
def insert (lru : ConfidenceLru) (cid : CorrelationId) (confidence : ExactFloat) (nowNs : UInt64) :
    ConfidenceLru :=
  let written := lru.entries.put cid ⟨confidence, nowNs⟩
  if cid ∈ lru.entries.map then
    { lru with entries := written, queued := lru.queued.put _ _ }
  else
    { lru with
      entries := written.shrink lru.capacity
      queued := (lru.queued.put _ _).shrink _ }

/-- `get`. -/
def get (lru : ConfidenceLru) (cid : CorrelationId) (nowNs : UInt64) : Option ExactFloat :=
  (lru.entries.map.lookup cid).bind fun e => e.read lru.stalenessNs nowNs

@[simp] theorem capacity_insert (lru : ConfidenceLru) (cid : CorrelationId) (c : ExactFloat)
    (nowNs : UInt64) : (lru.insert cid c nowNs).capacity = lru.capacity := by
  simp only [insert]
  split_ifs <;> rfl

@[simp] theorem stalenessNs_insert (lru : ConfidenceLru) (cid : CorrelationId) (c : ExactFloat)
    (nowNs : UInt64) : (lru.insert cid c nowNs).stalenessNs = lru.stalenessNs := by
  simp only [insert]
  split_ifs <;> rfl

/-- The queue after a write. -/
theorem order_insert (lru : ConfidenceLru) (cid : CorrelationId) (c : ExactFloat) (nowNs : UInt64) :
    (lru.insert cid c nowNs).entries.order =
      if cid ∈ lru.entries.map then lru.entries.order
      else (lru.entries.order ++ [cid]).drop (lru.entries.order.length + 1 - lru.capacity) := by
  unfold insert
  by_cases hmem : cid ∈ lru.entries.map
  · simp [hmem, FifoMap.put]
  · simp [hmem, FifoMap.put, FifoMap.order_shrink]

/-- An id that a write makes the cache evict: one of the oldest, never the new one. -/
def Evicted (lru : ConfidenceLru) (cid other : CorrelationId) : Prop :=
  cid ∉ lru.entries.map ∧ other ∈ lru.entries.order.take (lru.entries.order.length + 1 - lru.capacity)

instance (lru : ConfidenceLru) (cid other : CorrelationId) : Decidable (lru.Evicted cid other) :=
  inferInstanceAs (Decidable (_ ∧ _))

theorem not_evicted_self (lru : ConfidenceLru) (cid : CorrelationId) : ¬ lru.Evicted cid cid := by
  rintro ⟨hmem, hcut⟩
  exact hmem ((lru.queued.mem_iff cid).mp (List.mem_of_mem_take hcut))

/-- The entries after a write. -/
theorem lookup_insert (lru : ConfidenceLru) (cid other : CorrelationId) (c : ExactFloat)
    (nowNs : UInt64) :
    (lru.insert cid c nowNs).entries.map.lookup other =
      if other = cid then some ⟨c, nowNs⟩
      else if lru.Evicted cid other then none else lru.entries.map.lookup other := by
  have hput : (lru.entries.put cid ⟨c, nowNs⟩).map.lookup other =
      if other = cid then some ⟨c, nowNs⟩ else lru.entries.map.lookup other := by
    by_cases heq : other = cid
    · subst heq
      simp
    · rw [FifoMap.lookup_put_ne heq, if_neg heq]
  unfold insert
  by_cases hmem : cid ∈ lru.entries.map
  · simp only [hmem, if_true, hput, Evicted, not_true_eq_false, false_and, if_false]
  · have horder : (lru.entries.put cid ⟨c, nowNs⟩).order = lru.entries.order ++ [cid] := if_neg hmem
    -- The capacity leaves room for the new id, so only old ones are cut off.
    have hcut : ((lru.entries.order ++ [cid]).take
        ((lru.entries.order ++ [cid]).length - lru.capacity)) =
        lru.entries.order.take (lru.entries.order.length + 1 - lru.capacity) := by
      have hpos := lru.capacity_pos
      rw [List.length_append, List.length_singleton, List.take_append_of_le_length (by omega)]
    simp only [hmem, if_false, FifoMap.lookup_shrink, horder, hcut, hput, Evicted,
      not_false_eq_true, true_and]
    by_cases heq : other = cid
    · subst heq
      have hnot : other ∉ lru.entries.order.take (lru.entries.order.length + 1 - lru.capacity) :=
        fun h => lru.not_evicted_self other ⟨hmem, h⟩
      simp [hnot]
    · simp [heq]

end ConfidenceLru

/-! ## Snapshot -/

/-- The clamp of `snapshot.rs`: NaN goes to the lower bound. -/
def clamp (v : ExactFloat) (lo hi : ℚ) : ExactFloat :=
  if v.isNan || v.lt (.fin lo) then .fin lo else if v.gt (.fin hi) then .fin hi else v

/-- `MAX_TRACKED_SYMBOLS`. -/
def maxTrackedSymbols : ℕ := 512

/-- `NewsImpactSnapshot`. -/
structure NewsImpactSnapshot where
  sentiment : ExactFloat
  impactMagnitude : ExactFloat
  tsNs : UInt64
deriving DecidableEq

/-- The value of a symbol without news. -/
def NewsImpactSnapshot.neutral : NewsImpactSnapshot := ⟨.fin 0, .fin 0, 0⟩

/-- Sentiment and magnitude within their ranges. -/
def NewsImpactSnapshot.clamped (n : NewsImpactSnapshot) : NewsImpactSnapshot :=
  ⟨clamp n.sentiment (-1) 1, clamp n.impactMagnitude 0 1, n.tsNs⟩

/-- `Snapshot`. -/
structure Snapshot where
  marketStability : ExactFloat
  marketStabilityTsNs : UInt64
  traderStability : ExactFloat
  traderStabilityTsNs : UInt64
  priority : List (SymbolId × Priority)
  newsImpact : List (SymbolId × NewsImpactSnapshot)

namespace Snapshot

/-- The snapshot of a cold cache. -/
def neutral : Snapshot := ⟨.fin 1, 0, .fin 1, 0, [], []⟩

/-- The first value of a symbol in a table. -/
def find {α : Type*} (table : List (SymbolId × α)) (sym : SymbolId) (dflt : α) : α :=
  ((table.find? fun entry => entry.1 = sym).map Prod.snd).getD dflt

/-- A table with the value of a symbol set: in place, at the end, or over the first entry of a full
table. -/
def put {α : Type*} (table : List (SymbolId × α)) (sym : SymbolId) (value : α) :
    List (SymbolId × α) :=
  match table.findIdx? fun entry => entry.1 = sym with
  | some i => table.set i (sym, value)
  | none =>
    if table.length < maxTrackedSymbols then table ++ [(sym, value)] else table.set 0 (sym, value)

def priorityOf (s : Snapshot) (sym : SymbolId) : Priority := find s.priority sym .p3

def newsImpactOf (s : Snapshot) (sym : SymbolId) : NewsImpactSnapshot :=
  find s.newsImpact sym .neutral

def withMarketStability (s : Snapshot) (value : ExactFloat) (tsNs : UInt64) : Snapshot :=
  { s with marketStability := clamp value 0 1, marketStabilityTsNs := tsNs }

def withTraderStability (s : Snapshot) (value : ExactFloat) (tsNs : UInt64) : Snapshot :=
  { s with traderStability := clamp value 0 1, traderStabilityTsNs := tsNs }

def withPriority (s : Snapshot) (sym : SymbolId) (tier : Priority) : Snapshot :=
  { s with priority := put s.priority sym tier }

def withNewsImpact (s : Snapshot) (sym : SymbolId) (value : NewsImpactSnapshot) : Snapshot :=
  { s with newsImpact := put s.newsImpact sym value.clamped }

end Snapshot

/-! ## Cache -/

/-- The part of the configuration that the cache reads; the size is checked when it is loaded. -/
structure WarmCacheConfig where
  tradeConfidenceLruSize : UInt32
  stalenessWindowMs : UInt32
  size_pos : 0 < tradeConfidenceLruSize.toNat

/-- The default of the configuration file. -/
def WarmCacheConfig.default : WarmCacheConfig := ⟨8192, 5000, by decide⟩

/-- The staleness window in nanoseconds. -/
def WarmCacheConfig.stalenessNs (cfg : WarmCacheConfig) : UInt64 :=
  UInt64.ofNat (min (cfg.stalenessWindowMs.toNat * 1000000) (2 ^ 64 - 1))

structure WarmCache where
  inner : Snapshot
  confidence : ConfidenceLru

namespace WarmCache

/-- A cold cache. -/
def new (cfg : WarmCacheConfig) : WarmCache :=
  ⟨.neutral, .new cfg.tradeConfidenceLruSize.toNat cfg.stalenessNs cfg.size_pos⟩

def marketStability (cache : WarmCache) : ExactFloat := cache.inner.marketStability

def traderStability (cache : WarmCache) : ExactFloat := cache.inner.traderStability

/-- `trade_confidence_at`, and `trade_confidence` with the time it reads. -/
def tradeConfidenceAt (cache : WarmCache) (cid : CorrelationId) (nowNs : UInt64) :
    Option ExactFloat :=
  cache.confidence.get cid nowNs

def priority (cache : WarmCache) (sym : SymbolId) : Priority := cache.inner.priorityOf sym

def newsImpact (cache : WarmCache) (sym : SymbolId) : NewsImpactSnapshot :=
  cache.inner.newsImpactOf sym

def storeMarketStability (cache : WarmCache) (value : ExactFloat) (tsNs : UInt64) : WarmCache :=
  { cache with inner := cache.inner.withMarketStability value tsNs }

def storeTraderStability (cache : WarmCache) (value : ExactFloat) (tsNs : UInt64) : WarmCache :=
  { cache with inner := cache.inner.withTraderStability value tsNs }

def storeTradeConfidence (cache : WarmCache) (cid : CorrelationId) (confidence : ExactFloat)
    (tsNs : UInt64) : WarmCache :=
  { cache with confidence := cache.confidence.insert cid confidence tsNs }

def storePriority (cache : WarmCache) (sym : SymbolId) (tier : Priority) : WarmCache :=
  { cache with inner := cache.inner.withPriority sym tier }

def storeNewsImpact (cache : WarmCache) (sym : SymbolId) (impact : NewsImpactSnapshot) : WarmCache :=
  { cache with inner := cache.inner.withNewsImpact sym impact }

end WarmCache

end Hedge.Warm
