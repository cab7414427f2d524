import Hedge.Common.Log
import Hedge.Common.Run
import Hedge.Core.RingWindow
import Hedge.Warm.Cache

/-!
# Rankings in order of insertion

Reference: `hedge-warmcache/src/lru.rs`.

`inserted` is the log of a run: the ids of the calls that were not held when they were called, so
that a call for a held id leaves no trace and one for an evicted id a new one. The queue is the end of
this log, cut at the capacity (`Fifo`), and an entry is that of the last call for its id (`Latest`).
-/

namespace Hedge.Warm

open Hedge Hedge.Common

/-- A call of `insert`. -/
structure RankInsert where
  cid : CorrelationId
  confidence : ExactFloat
  nowNs : UInt64

namespace ConfidenceLru

/-- One call as a step of a machine without outputs. -/
def insertStep (lru : ConfidenceLru) (call : RankInsert) : Unit × ConfidenceLru :=
  ((), lru.insert call.cid call.confidence call.nowNs)

/-- The cache after some calls. -/
def inserts (lru : ConfidenceLru) (calls : List RankInsert) : ConfidenceLru :=
  runState insertStep lru calls

/-- The ids that a run inserts, in order; a call for a held id overwrites its entry. -/
def inserted (lru : ConfidenceLru) (calls : List RankInsert) : List CorrelationId :=
  runCollect insertStep (fun lru call => if call.cid ∈ lru.entries.map then [] else [call.cid])
    lru calls

/-- The entry written by the last call for an id. -/
def lastEntry (calls : List RankInsert) (cid : CorrelationId) : Option Entry :=
  (calls.reverse.find? fun call => call.cid = cid).map fun call => ⟨call.confidence, call.nowNs⟩

@[simp] theorem inserts_concat (lru : ConfidenceLru) (calls : List RankInsert) (call : RankInsert) :
    lru.inserts (calls ++ [call])
      = (lru.inserts calls).insert call.cid call.confidence call.nowNs :=
  runState_append _ _ _

theorem inserted_concat (lru : ConfidenceLru) (calls : List RankInsert) (call : RankInsert) :
    lru.inserted (calls ++ [call]) = lru.inserted calls
      ++ if call.cid ∈ (lru.inserts calls).entries.map then [] else [call.cid] :=
  runCollect_concat _ _ _

theorem lastEntry_concat (calls : List RankInsert) (call : RankInsert) (cid : CorrelationId) :
    lastEntry (calls ++ [call]) cid =
      if cid = call.cid then some ⟨call.confidence, call.nowNs⟩ else lastEntry calls cid := by
  rw [lastEntry, find?_reverse_concat RankInsert.cid]
  split_ifs <;> rfl

@[simp] theorem capacity_inserts (lru : ConfidenceLru) (calls : List RankInsert) :
    (lru.inserts calls).capacity = lru.capacity := by
  induction calls using List.reverseRecOn with
  | nil => rfl
  | append_singleton calls call ih => rw [inserts_concat, capacity_insert, ih]

@[simp] theorem stalenessNs_inserts (lru : ConfidenceLru) (calls : List RankInsert) :
    (lru.inserts calls).stalenessNs = lru.stalenessNs := by
  induction calls using List.reverseRecOn with
  | nil => rfl
  | append_singleton calls call ih => rw [inserts_concat, stalenessNs_insert, ih]

/-! ## The queue -/

/-- The queue is the end of the log of the insertions. -/
def Fifo (log : List CorrelationId) (lru : ConfidenceLru) : Prop :=
  lru.entries.order = log.rtake lru.capacity

theorem Fifo.length_le {log : List CorrelationId} {lru : ConfidenceLru} (h : Fifo log lru) :
    lru.entries.order.length ≤ lru.capacity := by
  rw [h, List.rtake, List.length_drop]
  omega

/-- A new id goes to the end of the queue; when the queue is full, the id at its front leaves. -/
theorem Fifo.order_insert_of_notMem {log : List CorrelationId} {lru : ConfidenceLru}
    (h : Fifo log lru) {cid : CorrelationId} (hnew : cid ∉ lru.entries.map) (c : ExactFloat)
    (nowNs : UInt64) :
    (lru.insert cid c nowNs).entries.order =
      (if lru.entries.order.length < lru.capacity then lru.entries.order
        else lru.entries.order.tail) ++ [cid] := by
  have hle := h.length_le
  have hpos := lru.capacity_pos
  rw [order_insert, if_neg hnew]
  split_ifs with hroom
  · rw [Nat.sub_eq_zero_of_le hroom, List.drop_zero]
  · have hcut : lru.entries.order.length + 1 - lru.capacity = 1 := by omega
    rw [hcut, List.drop_append_of_le_length (by omega), List.drop_one]

theorem Fifo.insert {log : List CorrelationId} {lru : ConfidenceLru} (h : Fifo log lru)
    (cid : CorrelationId) (c : ExactFloat) (nowNs : UInt64) :
    Fifo (log ++ if cid ∈ lru.entries.map then [] else [cid]) (lru.insert cid c nowNs) := by
  unfold Fifo
  rw [order_insert, capacity_insert]
  split_ifs with hmem
  · rw [List.append_nil]
    exact h
  · have hlen := congrArg List.length h
    rw [List.rtake, List.length_drop] at hlen
    -- Cutting the queue and then the longer queue is cutting the longer log once.
    rw [h, List.rtake, List.rtake,
      ← List.drop_append_of_le_length (Nat.sub_le log.length lru.capacity), List.drop_drop,
      List.length_drop, List.length_append, List.length_singleton]
    congr 1
    have hpos := lru.capacity_pos
    omega

/-- After a run from an empty cache the queue is the end of the log of the run. -/
theorem fifo_inserts (capacity : ℕ) (stalenessNs : UInt64) (h : 0 < capacity)
    (calls : List RankInsert) :
    Fifo ((new capacity stalenessNs h).inserted calls)
      ((new capacity stalenessNs h).inserts calls) := by
  induction calls using List.reverseRecOn with
  | nil => exact (List.rtake_nil capacity).symm
  | append_singleton calls call ih =>
    rw [inserted_concat, inserts_concat]
    exact ih.insert _ _ _

/-- What a call evicts was at the front of the queue. -/
theorem Fifo.head?_of_evicted {log : List CorrelationId} {lru : ConfidenceLru} (h : Fifo log lru)
    {cid other : CorrelationId} {c : ExactFloat} {nowNs : UInt64} (hheld : other ∈ lru.entries.map)
    (hgone : other ∉ (lru.insert cid c nowNs).entries.map) :
    lru.entries.order.head? = some other := by
  have hqueued := (lru.insert cid c nowNs).queued
  rw [← hqueued.mem_iff] at hgone
  rw [← lru.queued.mem_iff] at hheld
  by_cases hmem : cid ∈ lru.entries.map
  · rw [order_insert, if_pos hmem] at hgone
    exact absurd hheld hgone
  · rw [h.order_insert_of_notMem hmem, List.mem_append, not_or] at hgone
    split_ifs at hgone with hroom
    · exact absurd hheld hgone.1
    · cases horder : lru.entries.order with
      | nil =>
        rw [horder] at hheld
        exact absurd hheld List.not_mem_nil
      | cons oldest rest =>
        rw [horder] at hheld hgone
        exact congrArg some ((List.mem_cons.mp hheld).resolve_right hgone.1).symm

/-! ## The entries -/

/-- A held id has the entry of its last call. -/
def Latest (calls : List RankInsert) (lru : ConfidenceLru) : Prop :=
  ∀ cid, cid ∈ lru.entries.map → lru.entries.map.lookup cid = lastEntry calls cid

theorem latest_inserts (capacity : ℕ) (stalenessNs : UInt64) (h : 0 < capacity)
    (calls : List RankInsert) : Latest calls ((new capacity stalenessNs h).inserts calls) := by
  induction calls using List.reverseRecOn with
  | nil =>
    intro cid hcid
    exact absurd hcid (AList.notMem_empty cid)
  | append_singleton calls call ih =>
    intro cid hcid
    rw [inserts_concat] at hcid ⊢
    rw [← AList.lookup_isSome] at hcid
    rw [lookup_insert] at hcid ⊢
    rw [lastEntry_concat]
    split_ifs at hcid ⊢ with hsame hevicted
    · rfl
    · cases hcid
    · exact ih cid (AList.lookup_isSome.mp hcid)

/-- An entry that is read is held and within the staleness window. -/
theorem read_eq (stalenessNs : UInt64) (e : Entry) (nowNs : UInt64) :
    e.read stalenessNs nowNs =
      if stalenessNs = 0 ∨ nowNs.toNat - e.tsNs.toNat ≤ stalenessNs.toNat then some e.confidence
      else none := by
  have hzero : 0 < stalenessNs ↔ stalenessNs ≠ 0 := by
    rw [UInt64.lt_iff_toNat_lt, ne_eq, ← UInt64.toNat_inj]
    exact Nat.pos_iff_ne_zero
  have hage : stalenessNs < nowNs.saturatingSub e.tsNs ↔
      ¬ nowNs.toNat - e.tsNs.toNat ≤ stalenessNs.toNat := by
    rw [UInt64.lt_iff_toNat_lt, UInt64.toNat_saturatingSub, not_le]
  simp only [Entry.read, Bool.and_eq_true, decide_eq_true_eq, hzero, hage, ← not_or, ne_eq, ite_not]

/-- A read gives the last confidence inserted for a held id, if that is fresh. -/
theorem Latest.get_eq_some_iff {calls : List RankInsert} {lru : ConfidenceLru} (h : Latest calls lru)
    (cid : CorrelationId) (nowNs : UInt64) (confidence : ExactFloat) :
    lru.get cid nowNs = some confidence ↔
      cid ∈ lru.entries.map ∧ ∃ tsNs, lastEntry calls cid = some ⟨confidence, tsNs⟩ ∧
        (lru.stalenessNs = 0 ∨ nowNs.toNat - tsNs.toNat ≤ lru.stalenessNs.toNat) := by
  rw [get]
  by_cases hheld : cid ∈ lru.entries.map
  · obtain ⟨e, he⟩ := Option.isSome_iff_exists.mp (AList.lookup_isSome.mpr hheld)
    rw [← h cid hheld, he, Option.bind_some, read_eq]
    constructor
    · intro hread
      split_ifs at hread with hfresh
      cases hread
      exact ⟨hheld, e.tsNs, rfl, hfresh⟩
    · rintro ⟨-, tsNs, hentry, hfresh⟩
      cases hentry
      exact if_pos hfresh
  · rw [AList.lookup_eq_none.mpr hheld]
    exact iff_of_false (by simp) fun hread => hheld hread.1

/-! ## The cache as a bounded queue -/

/-- The queue is as long as the map is large. -/
theorem length_keys (lru : ConfidenceLru) :
    lru.entries.map.keys.length = lru.entries.order.length := by
  refine ((List.perm_ext_iff_of_nodup lru.entries.map.keys_nodup lru.queued.nodup).mpr
    fun cid => ?_).length_eq
  rw [← AList.mem_keys, lru.queued.mem_iff]

/-- The cache is a bounded queue of the ids by insertion, with the last value of each. -/
theorem inserts_bounded_fifo (capacity : ℕ) (stalenessNs : UInt64) (h : 0 < capacity)
    (calls : List RankInsert) :
    let lru := (new capacity stalenessNs h).inserts calls
    -- The queue lists the keys, each once, by insertion.
    lru.entries.order = ((new capacity stalenessNs h).inserted calls).rtake capacity
      ∧ lru.entries.order.Nodup
      ∧ (∀ cid, cid ∈ lru.entries.order ↔ cid ∈ lru.entries.map)
      ∧ lru.entries.map.keys.length ≤ capacity
    -- A call for a held id moves no key, and one for another id evicts at most the oldest.
      ∧ (∀ call : RankInsert, call.cid ∈ lru.entries.map →
          (lru.insert call.cid call.confidence call.nowNs).entries.order = lru.entries.order)
      ∧ (∀ call : RankInsert, call.cid ∉ lru.entries.map →
          (lru.insert call.cid call.confidence call.nowNs).entries.order =
            (if lru.entries.order.length < capacity then lru.entries.order
              else lru.entries.order.tail) ++ [call.cid])
      ∧ (∀ (call : RankInsert) (other : CorrelationId), other ∈ lru.entries.map →
          other ∉ (lru.insert call.cid call.confidence call.nowNs).entries.map →
          lru.entries.order.head? = some other)
    -- A held id reads the last confidence inserted for it while that is fresh.
      ∧ (∀ cid nowNs confidence, lru.get cid nowNs = some confidence ↔
          cid ∈ lru.entries.map ∧ ∃ tsNs, lastEntry calls cid = some ⟨confidence, tsNs⟩ ∧
            (stalenessNs = 0 ∨ nowNs.toNat - tsNs.toNat ≤ stalenessNs.toNat)) := by
  intro lru
  have hcapacity : lru.capacity = capacity := capacity_inserts _ _
  have hstaleness : lru.stalenessNs = stalenessNs := stalenessNs_inserts _ _
  have hfifo : Fifo ((new capacity stalenessNs h).inserted calls) lru := fifo_inserts _ _ _ _
  have hlatest : Latest calls lru := latest_inserts _ _ _ _
  have hkeys := lru.length_keys
  have hlength := hfifo.length_le
  refine ⟨?order, lru.queued.nodup, lru.queued.mem_iff, ?bound, ?overwrite, ?append, ?evict, ?get⟩
  case order => rw [hfifo, hcapacity]
  case bound => omega
  case overwrite =>
    intro call hheld
    rw [order_insert, if_pos hheld]
  case append =>
    intro call hnew
    rw [hfifo.order_insert_of_notMem hnew, hcapacity]
  case evict =>
    intro call other hheld hgone
    exact hfifo.head?_of_evicted hheld hgone
  case get =>
    intro cid nowNs confidence
    rw [hlatest.get_eq_some_iff, hstaleness]

/-- A cache of two ids: the third evicts the first, which on its return evicts the second. -/
theorem inserts_bounded_fifo_two :
    let lru := (new 2 10 (by decide)).inserts
      [⟨⟨1⟩, .fin 1, 0⟩, ⟨⟨2⟩, .fin 1, 0⟩, ⟨⟨1⟩, .fin 0, 5⟩, ⟨⟨3⟩, .fin 1, 6⟩, ⟨⟨1⟩, .fin 1, 7⟩]
    lru.entries.order = [⟨3⟩, ⟨1⟩] ∧ lru.entries.map.keys.length ≤ 2 := by
  intro lru
  have hfifo := inserts_bounded_fifo 2 10 (by decide)
    [⟨⟨1⟩, .fin 1, 0⟩, ⟨⟨2⟩, .fin 1, 0⟩, ⟨⟨1⟩, .fin 0, 5⟩, ⟨⟨3⟩, .fin 1, 6⟩, ⟨⟨1⟩, .fin 1, 7⟩]
  refine ⟨hfifo.1.trans ?_, hfifo.2.2.2.1⟩
  decide

end ConfidenceLru

end Hedge.Warm
