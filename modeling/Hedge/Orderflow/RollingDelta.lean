import Hedge.Common.Machine
import Hedge.Core.RingWindow
import Hedge.Core.Types
import Mathlib.Algebra.BigOperators.Group.List.Basic
import Mathlib.Tactic.Common

/-!
# Rolling delta

Reference: `hedge-orderflow/src/metrics.rs`.

Trades go into buckets of a fixed length. The window keeps the latest three hundred closed buckets
and the open one, and a reading adds up those that start no earlier than the window does. `Tracks`
says which trades the buckets stand for: up to the bound of `u64` the volume since the start of any
bucket is the one of the trades since then.
-/

namespace Hedge.Orderflow

open Hedge Hedge.Common Hedge.Core

/-! ## Model -/

/-- One bucket of aggressor volumes. -/
structure DeltaBucket where
  bucketStartNs : UInt64
  buyerVolume : UInt64
  sellerVolume : UInt64
deriving DecidableEq

/-- The volume of one side. -/
def DeltaBucket.volumeOf (b : DeltaBucket) : Side → UInt64
  | .buy => b.buyerVolume
  | .sell => b.sellerVolume

/-- `ROLLING_DELTA_BUCKETS`. -/
def rollingDeltaBuckets : ℕ := 300

/-- `DEFAULT_ROLLING_DELTA_WINDOW_NS`. -/
def defaultRollingDeltaWindowNs : UInt64 := 30000000000

/-- Rolling window of aggressor volumes. -/
structure RollingDelta where
  windowNs : UInt64
  bucketSizeNs : UInt64
  buckets : RingWindow DeltaBucket rollingDeltaBuckets
  openBucket : DeltaBucket
  openInitialised : Bool

/-- The start of the bucket of a time. -/
def bucketStart (bucketSizeNs nowNs : UInt64) : UInt64 := nowNs / bucketSizeNs * bucketSizeNs

namespace RollingDelta

/-- `with_window`. -/
def withWindow (windowNs : UInt64) : RollingDelta where
  windowNs := windowNs
  bucketSizeNs := max (windowNs / 300) 1
  buckets := RingWindow.new ⟨0, 0, 0⟩ (by decide)
  openBucket := ⟨0, 0, 0⟩
  openInitialised := false

/-- `record`. -/
def record (d : RollingDelta) (nowNs buyerVolume sellerVolume : UInt64) : RollingDelta :=
  let start := bucketStart d.bucketSizeNs nowNs
  if d.openInitialised = false then
    { d with openBucket := ⟨start, buyerVolume, sellerVolume⟩, openInitialised := true }
  else if start = d.openBucket.bucketStartNs then
    { d with
      openBucket := { d.openBucket with
        buyerVolume := d.openBucket.buyerVolume.saturatingAdd buyerVolume
        sellerVolume := d.openBucket.sellerVolume.saturatingAdd sellerVolume } }
  else
    { d with
      buckets := d.buckets.push d.openBucket
      openBucket := ⟨start, buyerVolume, sellerVolume⟩ }

theorem record_config (d : RollingDelta) (nowNs buyerVolume sellerVolume : UInt64) :
    (d.record nowNs buyerVolume sellerVolume).windowNs = d.windowNs
      ∧ (d.record nowNs buyerVolume sellerVolume).bucketSizeNs = d.bucketSizeNs := by
  unfold RollingDelta.record
  dsimp only
  split_ifs <;> exact ⟨rfl, rfl⟩

/-- The open bucket, if there is one. -/
def opened (d : RollingDelta) : List DeltaBucket := if d.openInitialised then [d.openBucket] else []

/-- The buckets of the window. -/
def held (d : RollingDelta) : List DeltaBucket := d.buckets.iter ++ d.opened

end RollingDelta

/-- The volume of what starts at a time or later. -/
def volumeSince {α : Type*} (start vol : α → ℕ) (since : ℕ) (xs : List α) : ℕ :=
  ((xs.filter fun x => since ≤ start x).map vol).sum

namespace RollingDelta

/-- The volume of a side over the window. The sums of the source do not reach the bound of `u128`.
-/
def volume (d : RollingDelta) (side : Side) (nowNs : UInt64) : UInt64 :=
  let cutoff := nowNs.saturatingSub d.windowNs
  UInt64.ofNat (min (volumeSince (·.bucketStartNs.toNat) (fun b => (b.volumeOf side).toNat)
    cutoff.toNat d.held) (2 ^ 64 - 1))

/-- `buyer_volume`. -/
def buyerVolume (d : RollingDelta) (nowNs : UInt64) : UInt64 := d.volume .buy nowNs

/-- `seller_volume`. -/
def sellerVolume (d : RollingDelta) (nowNs : UInt64) : UInt64 := d.volume .sell nowNs

/-- `signed_delta`. -/
def signedDelta (d : RollingDelta) (nowNs : UInt64) : Int64 :=
  Int64.clamp ((d.buyerVolume nowNs).toNat - (d.sellerVolume nowNs).toNat)

end RollingDelta

/-! ## The trades of a window -/

/-- A trade with the volumes it was recorded with. -/
structure Trade where
  atNs : UInt64
  buyerVolume : UInt64
  sellerVolume : UInt64

/-- The volume of one side. -/
def Trade.volumeOf (t : Trade) : Side → UInt64
  | .buy => t.buyerVolume
  | .sell => t.sellerVolume

/-- The volume of a side that is traded since a time. -/
def tradedSince (side : Side) (since : ℕ) (trades : List Trade) : ℕ :=
  volumeSince (·.atNs.toNat) (fun t => (t.volumeOf side).toNat) since trades

section Sums

variable {α : Type*} {start vol : α → ℕ} {since : ℕ}

theorem volumeSince_append (xs ys : List α) :
    volumeSince start vol since (xs ++ ys)
      = volumeSince start vol since xs + volumeSince start vol since ys := by
  rw [volumeSince, List.filter_append, List.map_append, List.sum_append, volumeSince, volumeSince]

theorem volumeSince_singleton (x : α) :
    volumeSince start vol since [x] = if since ≤ start x then vol x else 0 := by
  rw [volumeSince, List.filter_singleton]
  split_ifs with h
  · simp [h]
  · simp [h]

/-- What starts before the time does not count. -/
theorem volumeSince_eq_zero {xs : List α} (h : ∀ x ∈ xs, start x < since) :
    volumeSince start vol since xs = 0 := by
  have hnone : xs.filter (fun x => since ≤ start x) = [] := by
    rw [List.filter_eq_nil_iff]
    intro x hx
    simpa using h x hx
  rw [volumeSince, hnone]
  rfl

theorem volumeSince_congr {start' : α → ℕ} {since' : ℕ} {xs : List α}
    (h : ∀ x ∈ xs, since ≤ start x ↔ since' ≤ start' x) :
    volumeSince start vol since xs = volumeSince start' vol since' xs := by
  have hfilter : xs.filter (fun x => since ≤ start x) = xs.filter (fun x => since' ≤ start' x) :=
    List.filter_congr fun x hx => by simpa using h x hx
  rw [volumeSince, hfilter, volumeSince]

end Sums

theorem toNat_bucketStart (size now : UInt64) :
    (bucketStart size now).toNat = now.toNat / size.toNat * size.toNat := by
  have hle : now.toNat / size.toNat * size.toNat ≤ now.toNat := Nat.div_mul_le_self _ _
  have hlt := now.toNat_lt
  rw [bucketStart, UInt64.toNat_mul, UInt64.toNat_div, Nat.mod_eq_of_lt (by omega)]

/-- A bucket starts at a time or later exactly if its trades come at the next start or later. -/
theorem le_div_mul_iff {size : ℕ} (hsize : 0 < size) (since t : ℕ) :
    since ≤ t / size * size ↔ (since + size - 1) / size * size ≤ t := by
  rw [← Nat.le_div_iff_mul_le hsize, Nat.div_le_iff_le_mul_add_pred hsize, Nat.mul_comm]
  omega

namespace RollingDelta

/-- The window stands for some trades: `closed` are the buckets that were closed, of which it holds
the latest. -/
structure Tracks (d : RollingDelta) (closed : List DeltaBucket) (trades : List Trade) : Prop where
  /-- The buckets reach over the window. -/
  covers : d.windowNs.toNat < 301 * d.bucketSizeNs.toNat
  held : d.buckets.iter = closed.drop (closed.length - rollingDeltaBuckets)
  unopened : d.openInitialised = false → closed = []
  spaced : (closed ++ d.opened).Pairwise fun a b =>
    a.bucketStartNs.toNat + d.bucketSizeNs.toNat ≤ b.bucketStartNs.toNat
  aligned : ∀ b ∈ closed ++ d.opened, d.bucketSizeNs.toNat ∣ b.bucketStartNs.toNat
  started : ∀ b ∈ closed ++ d.opened, ∃ t ∈ trades, b.bucketStartNs ≤ t.atNs
  volumes : ∀ side since,
    min (volumeSince (·.bucketStartNs.toNat) (fun b => (b.volumeOf side).toNat) since
      (closed ++ d.opened)) (2 ^ 64 - 1)
    = min (volumeSince (fun t => (bucketStart d.bucketSizeNs t.atNs).toNat)
      (fun t => (t.volumeOf side).toNat) since trades) (2 ^ 64 - 1)

theorem tracks_withWindow {windowNs : UInt64}
    (hcovers : windowNs.toNat < 301 * (max (windowNs / 300) 1).toNat) :
    Tracks (withWindow windowNs) [] [] where
  covers := hcovers
  held := RingWindow.iter_new _ _
  unopened _ := rfl
  spaced := List.Pairwise.nil
  aligned _ h := absurd h List.not_mem_nil
  started _ h := absurd h List.not_mem_nil
  volumes _ _ := rfl

section Record

variable {d : RollingDelta} {closed : List DeltaBucket} {trades : List Trade}

theorem Tracks.bucketSize_pos (h : Tracks d closed trades) : 0 < d.bucketSizeNs.toNat := by
  have hcovers := h.covers
  omega

/-- A trade without volume. -/
theorem Tracks.skip (h : Tracks d closed trades) (nowNs : UInt64) :
    Tracks d closed (trades ++ [⟨nowNs, 0, 0⟩]) := by
  refine { h with started := ?_, volumes := ?_ }
  · intro b hb
    obtain ⟨t, ht, hle⟩ := h.started b hb
    exact ⟨t, List.mem_append_left _ ht, hle⟩
  · intro side since
    have hzero : ((⟨nowNs, 0, 0⟩ : Trade).volumeOf side).toNat = 0 := by cases side <;> rfl
    rw [h.volumes, volumeSince_append, volumeSince_singleton, hzero, ite_self, Nat.add_zero]

/-- The buckets of a trade no earlier than those before it. -/
theorem Tracks.start_add_le (h : Tracks d closed trades) {nowNs : UInt64}
    (hnow : ∀ t ∈ trades, t.atNs ≤ nowNs) {b : DeltaBucket} (hb : b ∈ closed ++ d.opened)
    (hne : bucketStart d.bucketSizeNs nowNs ≠ b.bucketStartNs) :
    b.bucketStartNs.toNat + d.bucketSizeNs.toNat
      ≤ (bucketStart d.bucketSizeNs nowNs).toNat := by
  obtain ⟨t, ht, hle⟩ := h.started b hb
  obtain ⟨k, hk⟩ := h.aligned b hb
  have hpos := h.bucketSize_pos
  have hreach : b.bucketStartNs.toNat ≤ nowNs.toNat :=
    (UInt64.le_iff_toNat_le.mp hle).trans (UInt64.le_iff_toNat_le.mp (hnow t ht))
  have hkle : k ≤ nowNs.toNat / d.bucketSizeNs.toNat := by
    rw [Nat.le_div_iff_mul_le hpos, Nat.mul_comm, ← hk]
    exact hreach
  have hkne : k ≠ nowNs.toNat / d.bucketSizeNs.toNat := by
    intro heq
    apply hne
    rw [← UInt64.toNat_inj, toNat_bucketStart, hk, heq, Nat.mul_comm]
  rw [toNat_bucketStart, hk, Nat.mul_comm, ← Nat.succ_mul]
  exact Nat.mul_le_mul_right _ (by omega)

/-- The start of a bucket is no later than its trades. -/
theorem bucketStart_le (size nowNs : UInt64) : bucketStart size nowNs ≤ nowNs := by
  rw [UInt64.le_iff_toNat_le, toNat_bucketStart]
  exact Nat.div_mul_le_self _ _

/-- A bucket that is opened after all others. -/
theorem Tracks.append (h : Tracks d closed trades) {d' : RollingDelta} {closed' : List DeltaBucket}
    {trade : Trade} (hwindow : d'.windowNs = d.windowNs) (hsize : d'.bucketSizeNs = d.bucketSizeNs)
    (hheld : d'.buckets.iter = closed'.drop (closed'.length - rollingDeltaBuckets))
    (hopened : d'.openInitialised = true)
    (hall : closed' ++ d'.opened = (closed ++ d.opened) ++
      [⟨bucketStart d.bucketSizeNs trade.atNs, trade.buyerVolume, trade.sellerVolume⟩])
    (hspaced : ∀ b ∈ closed ++ d.opened, b.bucketStartNs.toNat + d.bucketSizeNs.toNat
      ≤ (bucketStart d.bucketSizeNs trade.atNs).toNat) :
    Tracks d' closed' (trades ++ [trade]) where
  covers := by rw [hwindow, hsize]; exact h.covers
  held := hheld
  unopened hnot := by rw [hopened] at hnot; cases hnot
  spaced := by
    rw [hall, hsize, List.pairwise_append]
    refine ⟨h.spaced, List.pairwise_singleton _ _, ?_⟩
    intro b hb b' hb'
    rw [List.mem_singleton.mp hb']
    exact hspaced b hb
  aligned := by
    rw [hall, hsize, List.forall_mem_append]
    refine ⟨h.aligned, List.forall_mem_singleton.mpr ?_⟩
    rw [toNat_bucketStart]
    exact Nat.dvd_mul_left _ _
  started := by
    rw [hall, List.forall_mem_append]
    constructor
    · intro b hb
      obtain ⟨t, ht, hle⟩ := h.started b hb
      exact ⟨t, List.mem_append_left _ ht, hle⟩
    · refine List.forall_mem_singleton.mpr ⟨trade, by simp, ?_⟩
      exact bucketStart_le _ _
  volumes side since := by
    have hold := h.volumes side since
    rw [hall, hsize, volumeSince_append (closed ++ d.opened), volumeSince_append trades,
      volumeSince_singleton, volumeSince_singleton]
    have hsame : (DeltaBucket.volumeOf ⟨bucketStart d.bucketSizeNs trade.atNs, trade.buyerVolume,
        trade.sellerVolume⟩ side).toNat = (trade.volumeOf side).toNat := by cases side <;> rfl
    rw [hsame]
    dsimp only
    omega

theorem opened_of_initialised (hopened : d.openInitialised = true) : d.opened = [d.openBucket] :=
  if_pos hopened

/-- The open bucket takes another trade. -/
theorem Tracks.accumulate (h : Tracks d closed trades) (hopened : d.openInitialised = true)
    {trade : Trade} {b : DeltaBucket} (hstart : b.bucketStartNs = d.openBucket.bucketStartNs)
    (hbucket : bucketStart d.bucketSizeNs trade.atNs = b.bucketStartNs)
    (hvolume : ∀ side, b.volumeOf side
      = (d.openBucket.volumeOf side).saturatingAdd (trade.volumeOf side)) :
    Tracks { d with openBucket := b } closed (trades ++ [trade]) := by
  have hall : closed ++ d.opened = closed ++ [d.openBucket] := by rw [opened_of_initialised hopened]
  have hall' : closed ++ opened { d with openBucket := b } = closed ++ [b] :=
    congrArg (closed ++ ·) (if_pos hopened)
  refine ⟨h.covers, h.held, h.unopened, ?_, ?_, ?_, ?_⟩
  · have hold := h.spaced
    rw [hall, List.pairwise_append] at hold
    rw [hall', List.pairwise_append]
    refine ⟨hold.1, List.pairwise_singleton _ _, ?_⟩
    intro a ha b' hb'
    rw [List.mem_singleton.mp hb', hstart]
    exact hold.2.2 a ha d.openBucket (List.mem_singleton_self _)
  · have hold := h.aligned
    rw [hall, List.forall_mem_append] at hold
    rw [hall', List.forall_mem_append]
    refine ⟨hold.1, List.forall_mem_singleton.mpr ?_⟩
    rw [hstart]
    exact hold.2 _ (List.mem_singleton_self _)
  · have hold := h.started
    rw [hall, List.forall_mem_append] at hold
    rw [hall', List.forall_mem_append]
    constructor
    · intro a ha
      obtain ⟨t, ht, hle⟩ := hold.1 a ha
      exact ⟨t, List.mem_append_left _ ht, hle⟩
    · refine List.forall_mem_singleton.mpr ⟨trade, by simp, ?_⟩
      rw [← hbucket]
      exact bucketStart_le _ _
  · intro side since
    have hold := h.volumes side since
    rw [hall, volumeSince_append, volumeSince_singleton, ← hstart] at hold
    rw [hall', volumeSince_append, volumeSince_singleton, volumeSince_append,
      volumeSince_singleton, hvolume side, UInt64.toNat_saturatingAdd]
    dsimp only
    rw [hbucket]
    split_ifs at hold ⊢ <;> omega

/-- One step: the window stands for the trade that is recorded as well. -/
theorem Tracks.record (h : Tracks d closed trades) (trade : Trade)
    (hnow : ∀ t ∈ trades, t.atNs ≤ trade.atNs) :
    ∃ closed', Tracks (d.record trade.atNs trade.buyerVolume trade.sellerVolume) closed'
      (trades ++ [trade]) := by
  unfold RollingDelta.record
  dsimp only
  split_ifs with hunopened hsame
  · have hnil := h.unopened hunopened
    have hnone : d.opened = [] := by rw [opened, hunopened]; rfl
    refine ⟨closed, h.append rfl rfl h.held rfl ?_ ?_⟩
    · rw [hnone, hnil]
      rfl
    · rw [hnone, hnil]
      exact fun b hb => absurd hb List.not_mem_nil
  · have hopened : d.openInitialised = true := Bool.eq_true_of_not_eq_false hunopened
    exact ⟨closed, h.accumulate hopened rfl hsame fun side => by cases side <;> rfl⟩
  · have hopened : d.openInitialised = true := Bool.eq_true_of_not_eq_false hunopened
    have hlast : d.openBucket ∈ closed ++ d.opened := by
      rw [opened_of_initialised hopened]
      exact List.mem_append_right _ (List.mem_singleton_self _)
    have hnext := h.start_add_le hnow hlast hsame
    refine ⟨closed ++ [d.openBucket], h.append rfl rfl ?_ hopened ?_ ?_⟩
    · exact RingWindow.iter_push_of_eq h.held _
    · rw [opened_of_initialised hopened]
      exact congrArg (closed ++ [d.openBucket] ++ ·) (if_pos hopened)
    · have hspaced := h.spaced
      rw [opened_of_initialised hopened, List.pairwise_append] at hspaced
      rw [opened_of_initialised hopened, List.forall_mem_append]
      refine ⟨fun b hb => ?_, List.forall_mem_singleton.mpr hnext⟩
      have hle := hspaced.2.2 b hb d.openBucket (List.mem_singleton_self _)
      omega

end Record

/-! ## Reading the window -/

/-- The volume of a side is that of the trades in the window before a time, up to one bucket and the
bound of `u64`. -/
def CountsWindow (windowNs bucketSizeNs nowNs : ℕ) (side : Side) (trades : List Trade)
    (v : UInt64) : Prop :=
  ∃ since, nowNs ≤ since + windowNs + bucketSizeNs ∧ since ≤ nowNs - windowNs + bucketSizeNs ∧
    v.toNat = min (tradedSince side since trades) (2 ^ 64 - 1)

/-- Spaced buckets take up time. -/
theorem first_add_le_last {size : ℕ} {x y : DeltaBucket} {l : List DeltaBucket}
    (h : (x :: l ++ [y]).Pairwise fun a b =>
      a.bucketStartNs.toNat + size ≤ b.bucketStartNs.toNat) :
    x.bucketStartNs.toNat + (l.length + 1) * size ≤ y.bucketStartNs.toNat := by
  induction l generalizing x with
  | nil =>
    have hxy := List.rel_of_pairwise_cons h (List.mem_singleton_self y)
    simpa using hxy
  | cons z l ih =>
    have hxz := List.rel_of_pairwise_cons h (List.mem_cons_self (a := z))
    have hzy := ih (List.pairwise_cons.mp h).2
    rw [List.length_cons, Nat.succ_mul]
    omega

section Read

variable {d : RollingDelta} {closed : List DeltaBucket} {trades : List Trade}

/-- A bucket that is no longer held is older than three hundred buckets and the open one. -/
theorem Tracks.evicted_le (h : Tracks d closed trades) {realNs : ℕ}
    (hnow : ∀ t ∈ trades, t.atNs.toNat ≤ realNs) {b : DeltaBucket}
    (hb : b ∈ closed.take (closed.length - rollingDeltaBuckets)) :
    b.bucketStartNs.toNat + 301 * d.bucketSizeNs.toNat ≤ realNs := by
  obtain ⟨pre, post, hsplit⟩ := List.append_of_mem hb
  have hopened : d.openInitialised = true := by
    by_contra hnot
    rw [h.unopened (Bool.eq_false_of_not_eq_true hnot)] at hb
    exact absurd hb List.not_mem_nil
  have hmany : rollingDeltaBuckets < closed.length := by
    have hpos := List.length_pos_of_mem hb
    rw [List.length_take] at hpos
    omega
  have hall : closed ++ d.opened = pre ++ (b ::
      (post ++ closed.drop (closed.length - rollingDeltaBuckets)) ++ [d.openBucket]) := by
    rw [opened_of_initialised hopened]
    conv_lhs => rw [← List.take_append_drop (closed.length - rollingDeltaBuckets) closed, hsplit]
    simp
  have hspaced := h.spaced
  rw [hall, List.pairwise_append] at hspaced
  have hspan := first_add_le_last hspaced.2.1
  have hlength : 301 ≤ (post ++ closed.drop (closed.length - rollingDeltaBuckets)).length + 1 := by
    rw [List.length_append, List.length_drop]
    rw [rollingDeltaBuckets] at hmany ⊢
    omega
  have hbuckets := Nat.mul_le_mul_right d.bucketSizeNs.toNat hlength
  obtain ⟨t, ht, hle⟩ := h.started d.openBucket (by
    rw [opened_of_initialised hopened]
    exact List.mem_append_right _ (List.mem_singleton_self _))
  have hlast := (UInt64.le_iff_toNat_le.mp hle).trans (hnow t ht)
  omega

/-- A reading whose cutoff tells the held buckets apart like `since` does counts the trades since
then, if no bucket since then was dropped. -/
theorem Tracks.toNat_volume (h : Tracks d closed trades) {side : Side} {nowNs : UInt64} {since : ℕ}
    (hevicted : ∀ b ∈ closed.take (closed.length - rollingDeltaBuckets),
      b.bucketStartNs.toNat < since)
    (hcutoff : ∀ b ∈ d.held, (nowNs.saturatingSub d.windowNs).toNat ≤ b.bucketStartNs.toNat ↔
      since ≤ b.bucketStartNs.toNat) :
    (d.volume side nowNs).toNat
      = min (volumeSince (fun t : Trade => (bucketStart d.bucketSizeNs t.atNs).toNat)
        (fun t => (t.volumeOf side).toNat) since trades) (2 ^ 64 - 1) := by
  have hheld : d.held = closed.drop (closed.length - rollingDeltaBuckets) ++ d.opened := by
    rw [RollingDelta.held, h.held]
  have hdropped : volumeSince (fun b : DeltaBucket => b.bucketStartNs.toNat)
      (fun b => (b.volumeOf side).toNat) since (closed ++ d.opened)
      = volumeSince (fun b : DeltaBucket => b.bucketStartNs.toNat)
        (fun b => (b.volumeOf side).toNat) since d.held := by
    rw [hheld, ← List.take_append_drop (closed.length - rollingDeltaBuckets) closed,
      List.append_assoc, volumeSince_append, volumeSince_eq_zero hevicted, Nat.zero_add,
      List.take_append_drop]
  rw [← h.volumes side since, hdropped, RollingDelta.volume, volumeSince_congr hcutoff,
    UInt64.toNat_ofNat', Nat.mod_eq_of_lt (by omega)]

/-- A reading whose cutoff tells the held buckets apart like the window before a time does counts
the trades of that window. -/
theorem Tracks.countsWindow (h : Tracks d closed trades) {realNs : ℕ} {nowNs : UInt64}
    (hnow : ∀ t ∈ trades, t.atNs.toNat ≤ realNs)
    (hcutoff : ∀ b ∈ d.held, (nowNs.saturatingSub d.windowNs).toNat ≤ b.bucketStartNs.toNat ↔
      realNs - d.windowNs.toNat ≤ b.bucketStartNs.toNat) (side : Side) :
    CountsWindow d.windowNs.toNat d.bucketSizeNs.toNat realNs side trades
      (d.volume side nowNs) := by
  have hpos := h.bucketSize_pos
  have hcovers := h.covers
  have hevicted : ∀ b ∈ closed.take (closed.length - rollingDeltaBuckets),
      b.bucketStartNs.toNat < realNs - d.windowNs.toNat := by
    intro b hb
    have hle := h.evicted_le hnow hb
    omega
  -- the trades of the buckets from the cutoff on are those from the next start on
  have hceil := le_div_mul_iff hpos (realNs - d.windowNs.toNat)
  set size := d.bucketSizeNs.toNat
  set since := (realNs - d.windowNs.toNat + size - 1) / size * size
  have hlow : realNs - d.windowNs.toNat ≤ since := by
    have hself := (hceil since).mpr (Nat.le_refl _)
    exact hself.trans (Nat.div_mul_le_self _ _)
  have hhigh : since ≤ realNs - d.windowNs.toNat + size - 1 := Nat.div_mul_le_self _ _
  refine ⟨since, by omega, by omega, ?_⟩
  rw [h.toNat_volume hevicted hcutoff, tradedSince]
  congr 1
  refine volumeSince_congr fun t _ => ?_
  rw [toNat_bucketStart]
  exact hceil _

end Read

end RollingDelta

end Hedge.Orderflow
