import Hedge.Common.FifoMap
import Hedge.Common.Json
import Hedge.Common.Run
import Hedge.Core.Types
import Mathlib.Data.Finset.Basic

/-!
# The signal join of the gateway

Reference: `hedge-ui-gateway/src/signals_join.rs`.

`/signals` shows a signal with the ranks of the same correlation id. Whichever half comes first is
buffered; a pending entry is joined, flushed without a rank, pruned, or evicted over the capacity.
Instants and durations are nanoseconds. A call that reads the clock takes its readings as arguments:
both `feed_*` read it once to prune and once more for an entry they create. The order in which a
`HashMap` is walked is not specified; it is the order of the model's map here.
-/

namespace Hedge.Gateway

open Hedge Hedge.Common

/-! ## Entries and payloads -/

/-- Join state of one correlation id. -/
structure PendingJoin where
  signal : Option Json
  ranks : List Json
  shadowedSources : List String
  insertedAt : ℕ

/-- An entry without either half. -/
def PendingJoin.new (insertedAt : ℕ) : PendingJoin := ⟨none, [], [], insertedAt⟩

/-- Outcome of feeding one half of the join. -/
inductive JoinOutcome where
  | joined (payload : Json)
  | pending (allRanksShadowed : Bool)
  | signalOnly (payload : Json)

/-- The payloads an outcome forwards. -/
def JoinOutcome.forwarded : JoinOutcome → List Json
  | joined payload | signalOnly payload => [payload]
  | pending _ => []

/-- `merge_payload`. -/
def mergePayload (id : String) (signal : Json) (ranks : List Json)
    (shadowedSources : List String) : Json :=
  .obj ([("signal", signal), ("ranks", .arr ranks)]
    ++ (if id.isEmpty then [] else [("correlation_id", .str id)])
    ++ (if shadowedSources.isEmpty then []
      else [("shadowed_sources", .arr (shadowedSources.map .str))]))

/-- `decide`: both halves have to be there. -/
def PendingJoin.decide (entry : PendingJoin) : JoinOutcome :=
  let allShadowed := !entry.shadowedSources.isEmpty && entry.ranks.isEmpty
  match entry.signal with
  | some signal =>
    if entry.ranks.isEmpty then .pending allShadowed
    else .joined (mergePayload "" signal entry.ranks entry.shadowedSources)
  | none => .pending allShadowed

/-- The source of a rank; a rank that names none has the empty one. -/
def rankSource (rank : Json) : String := ((rank.get "source").bind Json.asStr).getD ""

/-- A rank of this source is dropped. The empty source never is. -/
def isShadowedSource (shadow : Finset String) (source : String) : Bool :=
  !source.isEmpty && source ∈ shadow

/-- One half of a join. -/
inductive Half where
  | signal (payload : Json)
  | rank (payload : Json)

/-- Whether a half is to be dropped. The filter is asked about ranks only. -/
def Half.isShadowed (shadow : Finset String) : Half → Bool
  | signal _ => false
  | rank payload => isShadowedSource shadow (rankSource payload)

/-- Add a half to an entry; a rank that is to be dropped leaves its source only. -/
def Half.addTo (isShadowed : Bool) (entry : PendingJoin) : Half → PendingJoin
  | signal payload => { entry with signal := some payload }
  | rank payload =>
    if isShadowed then
      { entry with shadowedSources := entry.shadowedSources ++ [rankSource payload] }
    else { entry with ranks := entry.ranks ++ [payload] }

/-! ## Joiner -/

/-- The join buffer with its bounds and the shadowed components. -/
structure SignalsJoiner where
  inner : FifoMap String PendingJoin
  ttl : ℕ
  capacity : ℕ
  shadow : Finset String

namespace SignalsJoiner

/-- `SignalsJoiner::new`. -/
def new (ttl capacity : ℕ) (shadow : Finset String) : SignalsJoiner :=
  ⟨.empty, ttl, capacity, shadow⟩

/-- The pending entry of an id. -/
def entryOf (joiner : SignalsJoiner) (id : String) : Option PendingJoin :=
  joiner.inner.map.lookup id

/-- The entry is older than the time to live. -/
def isExpired (joiner : SignalsJoiner) (now : ℕ) (entry : PendingJoin) : Bool :=
  joiner.ttl < now - entry.insertedAt

/-- The entry is pruned: it is expired and has neither a signal nor a rank. -/
def isStale (joiner : SignalsJoiner) (now : ℕ) (entry : PendingJoin) : Bool :=
  joiner.isExpired now entry && entry.signal.isNone && entry.ranks.isEmpty

/-- The ids whose entries satisfy a predicate. -/
def idsWhere (joiner : SignalsJoiner) (p : PendingJoin → Bool) : List String :=
  (joiner.inner.map.entries.filter fun entry => p entry.2).map (·.1)

/-- `prune_expired`. -/
def pruneExpired (joiner : SignalsJoiner) (now : ℕ) : SignalsJoiner :=
  { joiner with inner := joiner.inner.removeAll (joiner.idsWhere (joiner.isStale now)) }

/-- `enforce_capacity`. -/
def enforceCapacity (joiner : SignalsJoiner) : SignalsJoiner :=
  { joiner with inner := joiner.inner.evict joiner.capacity }

/-- The entry a half is fed into: the pending one, or a new one. -/
def entryFor (joiner : SignalsJoiner) (id : String) (insertedAt : ℕ) : PendingJoin :=
  (joiner.entryOf id).getD (.new insertedAt)

/-- What both `feed_*` do under the lock before the capacity is enforced. -/
def feedUncapped (joiner : SignalsJoiner) (id : String) (half : Half) (isShadowed : Bool)
    (prunedAt insertedAt : ℕ) : JoinOutcome × SignalsJoiner :=
  let joiner := joiner.pruneExpired prunedAt
  let entry := half.addTo isShadowed (joiner.entryFor id insertedAt)
  let inner := joiner.inner.put id entry
  match entry.decide with
  | .joined payload => (.joined payload, { joiner with inner := inner.remove id })
  | .signalOnly payload => (.signalOnly payload, { joiner with inner := inner.remove id })
  | .pending allShadowed => (.pending allShadowed, { joiner with inner := inner })

/-- Feed one half. -/
def feed (joiner : SignalsJoiner) (id : String) (half : Half) (isShadowed : Bool)
    (prunedAt insertedAt : ℕ) : JoinOutcome × SignalsJoiner :=
  let (outcome, joiner) := joiner.feedUncapped id half isShadowed prunedAt insertedAt
  (outcome, joiner.enforceCapacity)

/-- `feed_signal`. -/
def feedSignal (joiner : SignalsJoiner) (id : String) (signal : Json) (prunedAt insertedAt : ℕ) :
    JoinOutcome × SignalsJoiner :=
  joiner.feed id (.signal signal) false prunedAt insertedAt

/-- `feed_rank`, once it has asked the filter. -/
def feedRank (joiner : SignalsJoiner) (id : String) (rank : Json) (isShadowed : Bool)
    (prunedAt insertedAt : ℕ) : JoinOutcome × SignalsJoiner :=
  joiner.feed id (.rank rank) isShadowed prunedAt insertedAt

/-- The payload a flush makes of an entry: without a signal there is none. -/
def flushPayload (id : String) (entry : PendingJoin) : Option Json :=
  entry.signal.map fun signal => mergePayload id signal entry.ranks entry.shadowedSources

/-- The payloads of the expired entries, each with its id. -/
def flushed (joiner : SignalsJoiner) (now : ℕ) : List (String × Json) :=
  (joiner.inner.map.entries.filter fun entry => joiner.isExpired now entry.2).filterMap
    fun entry => (flushPayload entry.1 entry.2).map (entry.1, ·)

/-- `flush_expired`. -/
def flushExpired (joiner : SignalsJoiner) (now : ℕ) : List Json × SignalsJoiner :=
  ((joiner.flushed now).map (·.2),
    { joiner with inner := joiner.inner.removeAll (joiner.idsWhere (joiner.isExpired now)) })

end SignalsJoiner

/-! ## Calls -/

/-- A call on a joiner or on its shadow filter. Each runs to its end before the next one. -/
inductive JoinCall where
  | feed (id : String) (half : Half) (prunedAt insertedAt : ℕ)
  | flushExpired (now : ℕ)
  | shadow (component : String)
  | unshadow (component : String)
  | replace (components : List String)

namespace SignalsJoiner

/-- One call: the payloads it outputs, each with its id, and the joiner after it. -/
def step (joiner : SignalsJoiner) : JoinCall → List (String × Json) × SignalsJoiner
  | .feed id (.signal signal) prunedAt insertedAt =>
    let (outcome, joiner) := joiner.feedSignal id signal prunedAt insertedAt
    (outcome.forwarded.map (id, ·), joiner)
  | .feed id (.rank rank) prunedAt insertedAt =>
    let isShadowed := isShadowedSource joiner.shadow (rankSource rank)
    let (outcome, joiner) := joiner.feedRank id rank isShadowed prunedAt insertedAt
    (outcome.forwarded.map (id, ·), joiner)
  | .flushExpired now => (joiner.flushed now, (joiner.flushExpired now).2)
  | .shadow component => ([], { joiner with shadow := insert component joiner.shadow })
  | .unshadow component => ([], { joiner with shadow := joiner.shadow.erase component })
  | .replace components => ([], { joiner with shadow := components.toFinset })

/-- The joiner after some calls. -/
abbrev run (joiner : SignalsJoiner) (calls : List JoinCall) : SignalsJoiner :=
  runState step joiner calls

/-! ## What a call does to one entry -/

section Entries

variable {joiner : SignalsJoiner} {id : String}

theorem step_feed (id : String) (half : Half) (prunedAt insertedAt : ℕ) :
    joiner.step (.feed id half prunedAt insertedAt) =
      ((joiner.feed id half (half.isShadowed joiner.shadow) prunedAt insertedAt).1.forwarded.map
          (id, ·),
        (joiner.feed id half (half.isShadowed joiner.shadow) prunedAt insertedAt).2) := by
  cases half <;> rfl

theorem mem_idsWhere {p : PendingJoin → Bool} :
    id ∈ joiner.idsWhere p ↔ ∃ entry, joiner.entryOf id = some entry ∧ p entry = true := by
  simp only [idsWhere, List.mem_map, List.mem_filter]
  constructor
  · rintro ⟨⟨id', entry⟩, ⟨hmem, hp⟩, rfl⟩
    exact ⟨entry, AList.mem_lookup_iff.mpr hmem, hp⟩
  · rintro ⟨entry, hentry, hp⟩
    exact ⟨⟨id, entry⟩, ⟨AList.mem_lookup_iff.mp hentry, hp⟩, rfl⟩

/-- Taking out the entries of a kind leaves the others. -/
theorem lookup_removeAll_idsWhere (p : PendingJoin → Bool) :
    (joiner.inner.removeAll (joiner.idsWhere p)).map.lookup id
      = (joiner.entryOf id).filter (!p ·) := by
  rw [FifoMap.lookup_removeAll]
  change _ = Option.filter _ (joiner.inner.map.lookup id)
  cases hentry : joiner.inner.map.lookup id with
  | none => simp
  | some entry =>
    have hmem : id ∈ joiner.idsWhere p ↔ p entry = true := by
      rw [mem_idsWhere, entryOf, hentry]
      simp
    cases hp : p entry <;> simp [hmem, hp, Option.filter]

theorem entryOf_pruneExpired (now : ℕ) :
    (joiner.pruneExpired now).entryOf id = (joiner.entryOf id).filter (!joiner.isStale now ·) :=
  lookup_removeAll_idsWhere _

theorem entryOf_flushExpired (now : ℕ) :
    (joiner.flushExpired now).2.entryOf id = (joiner.entryOf id).filter (!joiner.isExpired now ·) :=
  lookup_removeAll_idsWhere _

/-- An entry that a feed prunes had no signal. -/
theorem signal_eq_none_of_pruned {now : ℕ} {entry : PendingJoin}
    (hentry : joiner.entryOf id = some entry) (h : (joiner.pruneExpired now).entryOf id = none) :
    entry.signal = none := by
  rw [entryOf_pruneExpired, hentry] at h
  have hstale : joiner.isStale now entry = true := by simpa [Option.filter] using h
  simp only [isStale, Bool.and_eq_true, Option.isNone_iff_eq_none] at hstale
  exact hstale.1.2

/-- An entry that a feed does not prune is as it was. -/
theorem entryOf_of_entryOf_pruneExpired {now : ℕ} {entry : PendingJoin}
    (h : (joiner.pruneExpired now).entryOf id = some entry) : joiner.entryOf id = some entry := by
  rw [entryOf_pruneExpired] at h
  exact (Option.filter_eq_some_iff.mp h).1

/-- What a flush outputs for an id is made of its expired entry. -/
theorem filter_flushed (now : ℕ) :
    (joiner.flushed now).filter (fun out => out.1 = id)
      = ((((joiner.entryOf id).filter (joiner.isExpired now)).bind (flushPayload id)).map
          (id, ·)).toList := by
  have hcomm : (joiner.flushed now).filter (fun out => out.1 = id) =
      ((joiner.inner.map.entries.filter fun entry => entry.1 = id).filter
        fun entry => joiner.isExpired now entry.2).filterMap
          fun entry => (flushPayload entry.1 entry.2).map (entry.1, ·) := by
    simp only [flushed, List.filter_filterMap, List.filterMap_filter]
    refine List.filterMap_congr fun entry _ => ?_
    cases flushPayload entry.1 entry.2 <;> cases joiner.isExpired now entry.2 <;>
      by_cases hid : entry.1 = id <;> simp [Option.filter, hid]
  rw [hcomm, FifoMap.filter_entries]
  change _ = (((Option.filter _ (joiner.inner.map.lookup id)).bind _).map _).toList
  cases joiner.inner.map.lookup id with
  | none => rfl
  | some entry =>
    cases hexpired : joiner.isExpired now entry with
    | false => simp [hexpired, Option.filter]
    | true => cases hpayload : flushPayload id entry <;> simp [hexpired, Option.filter, hpayload]

end Entries

end SignalsJoiner

/-- Both halves join; one alone waits. -/
theorem PendingJoin.decide_cases (entry : PendingJoin) :
    (∃ signal, entry.signal = some signal ∧
      entry.decide = .joined (mergePayload "" signal entry.ranks entry.shadowedSources)) ∨
    ∃ allShadowed, entry.decide = .pending allShadowed := by
  unfold PendingJoin.decide
  cases entry.signal with
  | none => exact .inr ⟨_, rfl⟩
  | some signal =>
    dsimp only
    split_ifs
    · exact .inr ⟨_, rfl⟩
    · exact .inl ⟨signal, rfl, rfl⟩

namespace SignalsJoiner

section Feed

variable {joiner : SignalsJoiner} {id : String} {half : Half} {prunedAt insertedAt : ℕ}

/-- The entry after a half is added, in the joiner a feed has pruned. -/
def fedEntry (joiner : SignalsJoiner) (id : String) (half : Half) (isShadowed : Bool)
    (prunedAt insertedAt : ℕ) : PendingJoin :=
  half.addTo isShadowed ((joiner.pruneExpired prunedAt).entryFor id insertedAt)

/-- The buffer with that entry. -/
def fedInner (joiner : SignalsJoiner) (id : String) (half : Half) (isShadowed : Bool)
    (prunedAt insertedAt : ℕ) : FifoMap String PendingJoin :=
  (joiner.pruneExpired prunedAt).inner.put id
    (joiner.fedEntry id half isShadowed prunedAt insertedAt)

/-- A feed joins the entry and takes it out, or leaves it pending. -/
theorem feedUncapped_cases (joiner : SignalsJoiner) (id : String) (half : Half)
    (isShadowed : Bool) (prunedAt insertedAt : ℕ) :
    (∃ signal, (joiner.fedEntry id half isShadowed prunedAt insertedAt).signal = some signal ∧
      joiner.feedUncapped id half isShadowed prunedAt insertedAt =
        (.joined (mergePayload "" signal
            (joiner.fedEntry id half isShadowed prunedAt insertedAt).ranks
            (joiner.fedEntry id half isShadowed prunedAt insertedAt).shadowedSources),
          { joiner with
            inner := (joiner.fedInner id half isShadowed prunedAt insertedAt).remove id })) ∨
    ∃ allShadowed, joiner.feedUncapped id half isShadowed prunedAt insertedAt =
      (.pending allShadowed,
        { joiner with inner := joiner.fedInner id half isShadowed prunedAt insertedAt }) := by
  have hunfold : joiner.feedUncapped id half isShadowed prunedAt insertedAt =
      match (joiner.fedEntry id half isShadowed prunedAt insertedAt).decide with
      | .joined payload => (.joined payload,
          { joiner with
            inner := (joiner.fedInner id half isShadowed prunedAt insertedAt).remove id })
      | .signalOnly payload => (.signalOnly payload,
          { joiner with
            inner := (joiner.fedInner id half isShadowed prunedAt insertedAt).remove id })
      | .pending allShadowed => (.pending allShadowed,
          { joiner with inner := joiner.fedInner id half isShadowed prunedAt insertedAt }) := rfl
  rw [hunfold]
  rcases (joiner.fedEntry id half isShadowed prunedAt insertedAt).decide_cases with
    ⟨signal, hsignal, hdecide⟩ | ⟨allShadowed, hdecide⟩
  · exact .inl ⟨signal, hsignal, by rw [hdecide]⟩
  · exact .inr ⟨allShadowed, by rw [hdecide]⟩

end Feed

end SignalsJoiner

end Hedge.Gateway
