import Hedge.Warm.Updater

/-!
# Shadowed rankings

Reference: `hedge-warmcache/src/updater.rs`,
`hedge-schemas/json_schemas/ai_rank.schema.json`.

A ranking with `shadow` set is stored like any other. Two caches are compared, one that is fed all
messages and one that is fed those without shadowed rankings. They read the same all along exactly
if every shadowed ranking that is stored says again what the cache already holds for its id.
-/

namespace Hedge.Warm

open Hedge Hedge.Common

/-! ## Purpose -/

/-- A ranking of a shadowed source. -/
def WarmEvent.shadowed (ev : WarmEvent) : Bool :=
  ev.subject = .rank && (ev.payload.get "shadow").bind Json.asBool = some true

/-- The messages without the shadowed rankings. -/
def unshadowed (events : List WarmEvent) : List WarmEvent := events.filter (!·.shadowed)

/-- Every value read from the two caches is the same. -/
structure SameReadings (s t : WarmCache) : Prop where
  tradeConfidence : ∀ cid nowNs, s.tradeConfidenceAt cid nowNs = t.tradeConfidenceAt cid nowNs
  marketStability : s.marketStability = t.marketStability
  traderStability : s.traderStability = t.traderStability
  priority : ∀ sym, s.priority sym = t.priority sym
  newsImpact : ∀ sym, s.newsImpact sym = t.newsImpact sym

/-- Two entries that read the same at all times. -/
def Alike (stalenessNs : UInt64) (e e' : Entry) : Prop :=
  ∀ nowNs, e.read stalenessNs nowNs = e'.read stalenessNs nowNs

/-- A shadowed ranking that is stored finds an entry that reads as the one it stores. -/
def Repeats (cache : WarmCache) (ev : WarmEvent) : Prop :=
  ev.shadowed = true → ∀ cid confidence tsNs, rankStored ev.payload = some (cid, confidence, tsNs) →
    ∃ e, cache.confidence.entries.map.lookup cid = some e ∧
      Alike cache.confidence.stalenessNs e ⟨confidence, stampOr tsNs ev.nowNs⟩

/-! ## Related caches -/

/-- Entries that read the same, as they are found. -/
def AlikeFound (stalenessNs : UInt64) : Option Entry → Option Entry → Prop :=
  Option.Rel (Alike stalenessNs)

theorem AlikeFound.refl (stalenessNs : UInt64) (found : Option Entry) :
    AlikeFound stalenessNs found found := by
  cases found with
  | none => exact .none
  | some e => exact .some fun _ => rfl

theorem AlikeFound.read {stalenessNs : UInt64} {found found' : Option Entry}
    (h : AlikeFound stalenessNs found found') (nowNs : UInt64) :
    found.bind (·.read stalenessNs nowNs) = found'.bind (·.read stalenessNs nowNs) := by
  cases h with
  | none => rfl
  | some halike => exact halike nowNs

theorem AlikeFound.replace {stalenessNs : UInt64} {e e' : Entry} {found : Option Entry}
    (h : AlikeFound stalenessNs (some e) found) (halike : Alike stalenessNs e e') :
    AlikeFound stalenessNs (some e') found := by
  cases h with
  | some hfound => exact .some fun nowNs => (halike nowNs).symm.trans (hfound nowNs)

/-- Two caches with the same snapshot and the same queue, whose entries read the same. -/
structure Related (s t : WarmCache) : Prop where
  inner : s.inner = t.inner
  capacity : s.confidence.capacity = t.confidence.capacity
  stalenessNs : s.confidence.stalenessNs = t.confidence.stalenessNs
  order : s.confidence.entries.order = t.confidence.entries.order
  entries : ∀ cid, AlikeFound s.confidence.stalenessNs
    (s.confidence.entries.map.lookup cid) (t.confidence.entries.map.lookup cid)

section Related

variable {s t : WarmCache}

theorem related_self (s : WarmCache) : Related s s where
  inner := rfl
  capacity := rfl
  stalenessNs := rfl
  order := rfl
  entries _ := AlikeFound.refl _ _

theorem Related.sameReadings (h : Related s t) : SameReadings s t where
  tradeConfidence cid nowNs := by
    rw [WarmCache.tradeConfidenceAt, WarmCache.tradeConfidenceAt, ConfidenceLru.get,
      ConfidenceLru.get, ← h.stalenessNs]
    exact (h.entries cid).read nowNs
  marketStability := congrArg Snapshot.marketStability h.inner
  traderStability := congrArg Snapshot.traderStability h.inner
  priority sym := congrArg (·.priorityOf sym) h.inner
  newsImpact sym := congrArg (·.newsImpactOf sym) h.inner

theorem Related.mem_iff (h : Related s t) (cid : CorrelationId) :
    cid ∈ s.confidence.entries.map ↔ cid ∈ t.confidence.entries.map := by
  rw [← s.confidence.queued.mem_iff, ← t.confidence.queued.mem_iff, h.order]

/-- The same ranking stored in both. -/
theorem Related.storeTradeConfidence (h : Related s t) (cid : CorrelationId) (c : ExactFloat)
    (tsNs : UInt64) :
    Related (s.storeTradeConfidence cid c tsNs) (t.storeTradeConfidence cid c tsNs) where
  inner := h.inner
  capacity := by simpa [WarmCache.storeTradeConfidence] using h.capacity
  stalenessNs := by simpa [WarmCache.storeTradeConfidence] using h.stalenessNs
  order := by
    simp only [WarmCache.storeTradeConfidence, ConfidenceLru.order_insert, h.mem_iff, h.order,
      h.capacity]
  entries other := by
    have hevicted : s.confidence.Evicted cid other ↔ t.confidence.Evicted cid other := by
      rw [ConfidenceLru.Evicted, ConfidenceLru.Evicted, h.mem_iff, h.order, h.capacity]
    simp only [WarmCache.storeTradeConfidence, ConfidenceLru.lookup_insert,
      ConfidenceLru.stalenessNs_insert, hevicted]
    split_ifs
    · exact AlikeFound.refl _ _
    · exact AlikeFound.refl _ _
    · exact h.entries other

/-- A ranking that is stored in the first only, over an entry that reads the same. -/
theorem Related.overwrite (h : Related s t) {cid : CorrelationId} {c : ExactFloat} {tsNs : UInt64}
    {e : Entry} (hfound : s.confidence.entries.map.lookup cid = some e)
    (halike : Alike s.confidence.stalenessNs e ⟨c, tsNs⟩) :
    Related (s.storeTradeConfidence cid c tsNs) t := by
  have hmem : cid ∈ s.confidence.entries.map := by
    rw [← AList.lookup_isSome, hfound]
    rfl
  refine ⟨h.inner, ?_, ?_, ?_, fun other => ?_⟩
  · simpa [WarmCache.storeTradeConfidence] using h.capacity
  · simpa [WarmCache.storeTradeConfidence] using h.stalenessNs
  · simpa [WarmCache.storeTradeConfidence, ConfidenceLru.order_insert, hmem] using h.order
  · have hkept : ¬ s.confidence.Evicted cid other := fun hevicted => hevicted.1 hmem
    simp only [WarmCache.storeTradeConfidence, ConfidenceLru.lookup_insert,
      ConfidenceLru.stalenessNs_insert, if_neg hkept]
    split_ifs with heq
    · subst heq
      have hentry := h.entries other
      rw [hfound] at hentry
      exact hentry.replace halike
    · exact h.entries other

/-- The same message in both. -/
theorem Related.handle (h : Related s t) (ev : WarmEvent) :
    Related (handle s ev) (handle t ev) := by
  by_cases hrank : ev.subject = .rank
  · simp only [Warm.handle, hrank, handleRank]
    cases rankStored ev.payload with
    | none => exact h
    | some stored => exact h.storeTradeConfidence _ _ _
  · have hs := confidence_handle hrank s
    have ht := confidence_handle hrank t
    refine ⟨inner_handle_congr h.inner ev, ?_, ?_, ?_, ?_⟩
    · rw [hs, ht, h.capacity]
    · rw [hs, ht, h.stalenessNs]
    · rw [hs, ht, h.order]
    · rw [hs, ht]
      exact h.entries

end Related

/-! ## Both caches along a run -/

/-- One message: the second cache is spared the shadowed rankings. -/
def bothStep (caches : WarmCache × WarmCache) (ev : WarmEvent) : Unit × WarmCache × WarmCache :=
  ((), handle caches.1 ev, if ev.shadowed then caches.2 else handle caches.2 ev)

theorem runState_bothStep (s t : WarmCache) (events : List WarmEvent) :
    runState bothStep (s, t) events = (handleAll s events, handleAll t (unshadowed events)) := by
  induction events generalizing s t with
  | nil => rfl
  | cons ev events ih =>
    change runState bothStep (bothStep (s, t) ev).2 events = _
    rw [bothStep, ih]
    cases hshadowed : ev.shadowed <;> simp [handleAll, unshadowed, hshadowed]

/-- An entry is read at the time it is stored under. -/
theorem Entry.read_tsNs (stalenessNs : UInt64) (e : Entry) :
    e.read stalenessNs e.tsNs = some e.confidence := by
  have hage : e.tsNs.saturatingSub e.tsNs = 0 := by
    simp [UInt64.saturatingSub]
  have hfresh : ¬ stalenessNs < 0 := by
    simp [UInt64.lt_iff_toNat_lt]
  simp [Entry.read, hage, hfresh]

/-- After the message the caches read the same only if it repeats what is held. -/
theorem Related.repeats {s t : WarmCache} (h : Related s t) {ev : WarmEvent}
    (hsame : SameReadings (bothStep (s, t) ev).2.1 (bothStep (s, t) ev).2.2) : Repeats s ev := by
  intro hshadowed cid c tsNs hstored
  have hrank : ev.subject = .rank := by
    rw [WarmEvent.shadowed, Bool.and_eq_true, decide_eq_true_eq] at hshadowed
    exact hshadowed.1
  have hread := hsame.tradeConfidence cid
  simp only [bothStep, hshadowed, if_true, Warm.handle, hrank, handleRank, hstored,
    WarmCache.tradeConfidenceAt, WarmCache.storeTradeConfidence, ConfidenceLru.get,
    ConfidenceLru.lookup_insert, ConfidenceLru.stalenessNs_insert, Option.bind_some] at hread
  rw [← h.stalenessNs] at hread
  have hfound := (h.entries cid).read
  cases hlookup : s.confidence.entries.map.lookup cid with
  | none =>
    -- The new entry is read where there was none.
    have hnow := (hread (stampOr tsNs ev.nowNs)).trans (hfound (stampOr tsNs ev.nowNs)).symm
    rw [hlookup, Option.bind_none] at hnow
    have hself := Entry.read_tsNs s.confidence.stalenessNs ⟨c, stampOr tsNs ev.nowNs⟩
    rw [hself] at hnow
    cases hnow
  | some e =>
    refine ⟨e, rfl, fun nowNs => ?_⟩
    have hold := hfound nowNs
    rw [hlookup, Option.bind_some] at hold
    exact hold.trans (hread nowNs).symm

/-- A message that repeats what is held keeps the caches related. -/
theorem Related.bothStep {s t : WarmCache} (h : Related s t) {ev : WarmEvent} (hev : Repeats s ev) :
    Related (bothStep (s, t) ev).2.1 (bothStep (s, t) ev).2.2 := by
  cases hshadowed : ev.shadowed with
  | false =>
    simp only [Warm.bothStep, hshadowed]
    exact h.handle ev
  | true =>
    have hrank : ev.subject = .rank := by
      rw [WarmEvent.shadowed, Bool.and_eq_true, decide_eq_true_eq] at hshadowed
      exact hshadowed.1
    simp only [Warm.bothStep, hshadowed, if_true, Warm.handle, hrank, handleRank]
    cases hstored : rankStored ev.payload with
    | none => exact h
    | some stored =>
      obtain ⟨cid, c, tsNs⟩ := stored
      obtain ⟨e, hfound, halike⟩ := hev hshadowed cid c tsNs hstored
      exact h.overwrite hfound halike

/-- The cache reads all along as without the shadowed rankings exactly if every shadowed ranking
that is stored repeats what the cache holds for its id. -/
theorem shadow_free_iff (cfg : WarmCacheConfig) (events : List WarmEvent) :
    (∀ pre post, events = pre ++ post →
      SameReadings (handleAll (.new cfg) pre) (handleAll (.new cfg) (unshadowed pre))) ↔
    ∀ pre ev post, events = pre ++ ev :: post → Repeats (handleAll (.new cfg) pre) ev := by
  have hiff := @runState_observed_iff _ _ _ Warm.bothStep (fun caches => Related caches.1 caches.2)
    (fun caches => SameReadings caches.1 caches.2) (fun caches ev => Repeats caches.1 ev)
    (fun _ h => h.sameReadings) (fun _ _ h hsame => h.repeats hsame)
    (fun _ _ h hev => h.bothStep hev) (WarmCache.new cfg, WarmCache.new cfg) events (related_self _)
  simpa only [runState_bothStep] using hiff

/-- A shadowed ranking of a trade. -/
def shadowedRank : WarmEvent where
  subject := .rank
  payload := .obj [("correlation_id", .str "0000000000000000000000000000002a"),
    ("signal_id", .str "sig"), ("trade_confidence_score", .num (.float (9 / 10))),
    ("factors", .obj [("orderflow", .num (.float (9 / 10))),
      ("technical_strength", .num (.float (9 / 10))), ("news_sentiment", .num (.float (9 / 10))),
      ("market_regime", .num (.float (9 / 10))), ("trader_discipline", .num (.float (9 / 10)))]),
    ("shadow", .bool true), ("ts_ns", .ofU64 1700000000000000000)]
  nowNs := 1000000000

/-- The shadowed ranking sizes the trade. -/
theorem shadowedRank_read :
    (handleAll (.new .default) [shadowedRank]).tradeConfidenceAt ⟨42⟩ 2000000000
      = some (.fin (9 / 10)) ∧
    (handleAll (.new .default) (unshadowed [shadowedRank])).tradeConfidenceAt ⟨42⟩ 2000000000
      = none ∧
    ¬ ∀ (cfg : WarmCacheConfig) (events : List WarmEvent),
      (∀ ev ∈ events, ev.subject = .rank → ∃ b, ev.payload.get "shadow" = some (.bool b)) →
      SameReadings (handleAll (.new cfg) events) (handleAll (.new cfg) (unshadowed events)) := by
  have hstored : (handleAll (.new .default) [shadowedRank]).tradeConfidenceAt ⟨42⟩ 2000000000
      = some (.fin (9 / 10)) := by decide +kernel
  have hspared : (handleAll (.new .default) (unshadowed [shadowedRank])).tradeConfidenceAt ⟨42⟩
      2000000000 = none := by decide +kernel
  refine ⟨hstored, hspared, fun h => ?_⟩
  have hflagged : ∀ ev ∈ [shadowedRank], ev.subject = .rank →
      ∃ b, ev.payload.get "shadow" = some (.bool b) := by
    simp [shadowedRank]
  have hsame := (h .default [shadowedRank] hflagged).tradeConfidence ⟨42⟩ 2000000000
  rw [hstored, hspared] at hsame
  cases hsame

end Hedge.Warm
