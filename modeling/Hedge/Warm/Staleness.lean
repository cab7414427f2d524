import Hedge.Warm.Updater

/-!
# Stale rankings

Reference: `hedge-warmcache/src/lru.rs`, `hedge-warmcache/src/updater.rs`,
`hedge-core/src/clock.rs`, `hedge_warm_ai/ranking/engine.py`.

Real time is counted in nanoseconds since the Unix epoch. The producer stamps a ranking with it or
leaves the stamp at zero; the service reads the nanoseconds since its own start. A stamp of the
producer is compared with the clock of the service as if both counted from one origin, so it looks
as if it came from the future for as long as the service has been up for less time than passed
between the epoch and the stamp.
-/

namespace Hedge.Warm

open Hedge Hedge.Common

/-! ## Time -/

/-- `hedge_core::now_ns` at a real time, in a process with the given start. -/
def clockNs (startNs realNs : ℕ) : UInt64 := UInt64.ofNat (min (realNs - startNs) (2 ^ 64 - 1))

/-- A message and the real time of its arrival. -/
structure Delivery where
  subject : WarmSubject
  payload : Json
  atNs : ℕ

/-- The message as the updater handles it. -/
def Delivery.event (startNs : ℕ) (d : Delivery) : WarmEvent :=
  ⟨d.subject, d.payload, clockNs startNs d.atNs⟩

/-- The cache after some deliveries. -/
def cacheAfter (cfg : WarmCacheConfig) (startNs : ℕ) (ds : List Delivery) : WarmCache :=
  handleAll (.new cfg) (ds.map (·.event startNs))

/-- The message is a ranking of the id that was stamped at a real time: by its producer, or on its
arrival if it came without a stamp. -/
def Delivery.Stamped (d : Delivery) (cid : CorrelationId) (stampNs : ℕ) : Prop :=
  d.subject = .rank ∧ ∃ c tsNs, rankStored d.payload = some (cid, c, tsNs) ∧
    stampNs = if tsNs = 0 then d.atNs else tsNs.toNat

/-- What is read for the id at a real time is not stale. -/
def ReadsFresh (cfg : WarmCacheConfig) (startNs : ℕ) (ds : List Delivery) (cid : CorrelationId)
    (realNs : ℕ) : Prop :=
  (cacheAfter cfg startNs ds).tradeConfidenceAt cid (clockNs startNs realNs) ≠ none →
    ∃ d ∈ ds, ∃ stampNs, d.Stamped cid stampNs ∧ realNs ≤ stampNs + cfg.stalenessNs.toNat

/-- The message is no ranking stamped on another clock: it comes without a stamp, or the two clocks
have one origin. -/
def Delivery.OneClock (startNs : ℕ) (d : Delivery) : Prop :=
  d.subject = .rank → ∀ cid c tsNs, rankStored d.payload = some (cid, c, tsNs) →
    tsNs = 0 ∨ startNs = 0

/-! ## Where entries come from -/

/-- The clock before it saturates. -/
theorem toNat_clockNs {startNs realNs : ℕ} (h : realNs < startNs + 2 ^ 64) :
    (clockNs startNs realNs).toNat = realNs - startNs := by
  rw [clockNs, UInt64.toNat_ofNat', Nat.mod_eq_of_lt (by omega)]
  omega

/-- The entry of an id comes from a ranking that was stamped no earlier than the entry says on the
clock of the service. -/
def Sourced (startNs : ℕ) (ds : List Delivery) (cache : WarmCache) : Prop :=
  ∀ cid e, cache.confidence.entries.map.lookup cid = some e →
    ∃ d ∈ ds, ∃ stampNs, d.Stamped cid stampNs ∧ startNs + e.tsNs.toNat ≤ stampNs

section Sourced

variable {startNs : ℕ} {ds : List Delivery} {cache : WarmCache} {d : Delivery}

theorem Sourced.mono (h : Sourced startNs ds cache) : Sourced startNs (ds ++ [d]) cache := by
  intro cid e he
  obtain ⟨d', hd', hstamped⟩ := h cid e he
  exact ⟨d', List.mem_append_left _ hd', hstamped⟩

/-- What a ranking is stored under is no later than its stamp. -/
theorem add_stampOr_le {tsNs : UInt64} (hclock : tsNs = 0 ∨ startNs = 0) (hstart : startNs ≤ d.atNs)
    (hup : d.atNs < startNs + 2 ^ 64) :
    startNs + (stampOr tsNs (clockNs startNs d.atNs)).toNat
      ≤ if tsNs = 0 then d.atNs else tsNs.toNat := by
  unfold stampOr
  split_ifs with hzero
  · rw [toNat_clockNs hup]
    omega
  · have horigin := hclock.resolve_left hzero
    omega

theorem Sourced.handle (h : Sourced startNs ds cache) (hclock : d.OneClock startNs)
    (hstart : startNs ≤ d.atNs) (hup : d.atNs < startNs + 2 ^ 64) :
    Sourced startNs (ds ++ [d]) (handle cache (d.event startNs)) := by
  by_cases hrank : d.subject = .rank
  · have hhandle : Warm.handle cache (d.event startNs)
        = handleRank cache d.payload (clockNs startNs d.atNs) := by
      simp only [Warm.handle, Delivery.event, hrank]
    rw [hhandle, handleRank]
    cases hstored : rankStored d.payload with
    | none => exact h.mono
    | some stored =>
      obtain ⟨cid', c, tsNs⟩ := stored
      intro cid e he
      simp only [WarmCache.storeTradeConfidence, ConfidenceLru.lookup_insert] at he
      split_ifs at he with heq hevicted
      · subst heq
        cases he
        exact ⟨d, by simp, _, ⟨hrank, c, tsNs, hstored, rfl⟩,
          add_stampOr_le (hclock hrank _ _ _ hstored) hstart hup⟩
      · exact h.mono cid e he
  · intro cid e he
    rw [confidence_handle hrank] at he
    exact h.mono cid e he

end Sourced

/-- Every run of messages stamped on one clock keeps entries sourced. -/
theorem sourced_cacheAfter (cfg : WarmCacheConfig) {startNs : ℕ} {ds : List Delivery}
    (hclock : ∀ d ∈ ds, d.OneClock startNs) (hstart : ∀ d ∈ ds, startNs ≤ d.atNs)
    (hup : ∀ d ∈ ds, d.atNs < startNs + 2 ^ 64) : Sourced startNs ds (cacheAfter cfg startNs ds) := by
  induction ds using List.reverseRecOn with
  | nil =>
    intro cid e he
    cases he
  | append_singleton ds d ih =>
    simp only [List.forall_mem_append, List.forall_mem_singleton] at hclock hstart hup
    have hbefore := ih hclock.1 hstart.1 hup.1
    rw [cacheAfter, handleAll, List.map_append, List.map_singleton, List.foldl_append]
    exact hbefore.handle hclock.2 hstart.2 hup.2

/-! ## Reading -/

theorem stalenessNs_pos {cfg : WarmCacheConfig} (h : 0 < cfg.stalenessWindowMs.toNat) :
    0 < cfg.stalenessNs := by
  rw [UInt64.lt_iff_toNat_lt, WarmCacheConfig.stalenessNs, UInt64.toNat_ofNat',
    Nat.mod_eq_of_lt (by omega)]
  simp only [UInt64.toNat_zero]
  omega

/-- An entry that is read has an age within the window. -/
theorem age_le_of_read {w : UInt64} (hw : 0 < w) {e : Entry} {nowNs : UInt64}
    (h : e.read w nowNs ≠ none) : nowNs.toNat - e.tsNs.toNat ≤ w.toNat := by
  unfold Entry.read at h
  by_contra hover
  refine h (if_pos ?_)
  rw [Bool.and_eq_true, decide_eq_true_eq, decide_eq_true_eq]
  refine ⟨hw, ?_⟩
  rw [UInt64.lt_iff_toNat_lt, UInt64.toNat_saturatingSub]
  omega

theorem stalenessNs_cacheAfter (cfg : WarmCacheConfig) (startNs : ℕ) (ds : List Delivery) :
    (cacheAfter cfg startNs ds).confidence.stalenessNs = cfg.stalenessNs := by
  rw [cacheAfter, stalenessNs_handleAll]
  rfl

/-- With a window, whatever is read in a run of rankings that come without a stamp was stamped
within the window. -/
theorem reads_fresh_of_oneClock {cfg : WarmCacheConfig} (hwindow : 0 < cfg.stalenessWindowMs.toNat)
    {startNs : ℕ} {ds : List Delivery} (hclock : ∀ d ∈ ds, d.OneClock startNs)
    (hstart : ∀ d ∈ ds, startNs ≤ d.atNs) {realNs : ℕ} (hpast : ∀ d ∈ ds, d.atNs ≤ realNs)
    (hup : realNs < startNs + 2 ^ 64) (cid : CorrelationId) :
    ReadsFresh cfg startNs ds cid realNs := by
  intro hread
  have hsourced := sourced_cacheAfter cfg hclock hstart fun d hd =>
    Nat.lt_of_le_of_lt (hpast d hd) hup
  rw [WarmCache.tradeConfidenceAt, ConfidenceLru.get, stalenessNs_cacheAfter] at hread
  cases hfound : (cacheAfter cfg startNs ds).confidence.entries.map.lookup cid with
  | none =>
    rw [hfound] at hread
    exact absurd rfl hread
  | some e =>
    rw [hfound, Option.bind_some] at hread
    obtain ⟨d, hd, stampNs, hstamped, hle⟩ := hsourced cid e hfound
    have hage := age_le_of_read (stalenessNs_pos hwindow) hread
    rw [toNat_clockNs hup] at hage
    exact ⟨d, hd, stampNs, hstamped, by omega⟩

/-- A ranking with a stamp. -/
def stampedRank (tsNs : UInt64) (atNs : ℕ) : Delivery where
  subject := .rank
  payload := .obj [("correlation_id", .str "0000000000000000000000000000002a"),
    ("trade_confidence_score", .num (.float (9 / 10))), ("shadow", .bool false),
    ("ts_ns", .ofU64 tsNs)]
  atNs := atNs

theorem rankStored_stampedRank_zero (atNs : ℕ) :
    rankStored (stampedRank 0 atNs).payload = some (⟨42⟩, .fin (9 / 10), 0) := by
  change rankStored (stampedRank 0 0).payload = _
  decide +kernel

/-- A ranking without a stamp is read three seconds after it arrived. -/
theorem reads_fresh_unstamped :
    (cacheAfter .default 1700000000000000000
      [stampedRank 0 1700000001000000000]).tradeConfidenceAt ⟨42⟩
        (clockNs 1700000000000000000 1700000004000000000) = some (.fin (9 / 10)) ∧
    ReadsFresh .default 1700000000000000000 [stampedRank 0 1700000001000000000] ⟨42⟩
      1700000004000000000 := by
  refine ⟨by decide +kernel, reads_fresh_of_oneClock (by decide) ?_ (by simp [stampedRank])
    (by simp [stampedRank]) (by norm_num) ⟨42⟩⟩
  intro d hd _ cid c tsNs hstored
  rw [List.mem_singleton.mp hd, rankStored_stampedRank_zero] at hstored
  cases hstored
  exact .inl rfl

/-- A ranking stamped by its producer is read an hour later, with a window of five seconds. -/
theorem stampedRank_read_stale :
    (cacheAfter .default 1700000000000000000
      [stampedRank 1700000000000000000 1700000001000000000]).tradeConfidenceAt ⟨42⟩
        (clockNs 1700000000000000000 1700003600000000000) = some (.fin (9 / 10)) ∧
    ¬ ∀ (cfg : WarmCacheConfig), 0 < cfg.stalenessWindowMs.toNat → ∀ (startNs : ℕ)
        (ds : List Delivery), (∀ d ∈ ds, startNs ≤ d.atNs) → ∀ realNs, (∀ d ∈ ds, d.atNs ≤ realNs) →
      realNs < startNs + 2 ^ 64 → ∀ cid, ReadsFresh cfg startNs ds cid realNs := by
  have hread : (cacheAfter .default 1700000000000000000
      [stampedRank 1700000000000000000 1700000001000000000]).tradeConfidenceAt ⟨42⟩
        (clockNs 1700000000000000000 1700003600000000000) = some (.fin (9 / 10)) := by
    decide +kernel
  refine ⟨hread, fun h => ?_⟩
  obtain ⟨d, hd, stampNs, ⟨-, c, tsNs, hstored, hstamp⟩, hle⟩ :=
    h .default (by decide) 1700000000000000000
      [stampedRank 1700000000000000000 1700000001000000000] (by simp [stampedRank])
      1700003600000000000 (by simp [stampedRank]) (by norm_num) ⟨42⟩ (by rw [hread]; simp)
  have hrank : rankStored (stampedRank 1700000000000000000 1700000001000000000).payload
      = some (⟨42⟩, .fin (9 / 10), 1700000000000000000) := by
    decide +kernel
  have hwindow : WarmCacheConfig.default.stalenessNs.toNat = 5000000000 := by decide
  rw [List.mem_singleton.mp hd, hrank] at hstored
  cases hstored
  have hts : (1700000000000000000 : UInt64).toNat = 1700000000000000000 := by decide
  rw [if_neg (by decide), hts] at hstamp
  omega

end Hedge.Warm
