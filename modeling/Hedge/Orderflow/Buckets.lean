import Hedge.Orderflow.RollingDelta
import Mathlib.Data.Finset.Dedup
import Mathlib.Data.List.DropRight

/-!
# Which trades a reading counts

Reference: `hedge-orderflow/src/metrics.rs`.

The length of a bucket is the length of the window divided by three hundred, rounded down, so a
window can reach over more buckets than the 301 that are held. `Holds` says what is in them: they are
the latest of all buckets, and each has the volume of its trades. A reading then leaves out the
trades of the window whose bucket is no longer held.
-/

namespace Hedge.Orderflow

open Hedge Hedge.Common Hedge.Core

/-! ## Volumes by bucket -/

/-- The volume of what starts at certain times. -/
def volumeWhere {α : Type*} (start vol : α → ℕ) (p : ℕ → Bool) (xs : List α) : ℕ :=
  ((xs.filter fun x => p (start x)).map vol).sum

section Volumes

variable {α : Type*} {start vol : α → ℕ} {p q : ℕ → Bool}

theorem volumeSince_eq_volumeWhere (since : ℕ) (xs : List α) :
    volumeSince start vol since xs = volumeWhere start vol (fun s => since ≤ s) xs := rfl

theorem volumeWhere_append (xs ys : List α) :
    volumeWhere start vol p (xs ++ ys) = volumeWhere start vol p xs + volumeWhere start vol p ys := by
  rw [volumeWhere, List.filter_append, List.map_append, List.sum_append, volumeWhere, volumeWhere]

theorem volumeWhere_singleton (x : α) :
    volumeWhere start vol p [x] = if p (start x) then vol x else 0 := by
  rw [volumeWhere, List.filter_singleton]
  cases p (start x) <;> simp

theorem volumeWhere_cons (x : α) (xs : List α) :
    volumeWhere start vol p (x :: xs)
      = (if p (start x) then vol x else 0) + volumeWhere start vol p xs := by
  rw [← volumeWhere_singleton, ← volumeWhere_append, List.singleton_append]

theorem volumeWhere_le_sum (xs : List α) : volumeWhere start vol p xs ≤ (xs.map vol).sum := by
  induction xs with
  | nil => exact Nat.le_refl _
  | cons x xs ih =>
    rw [volumeWhere_cons, List.map_cons, List.sum_cons]
    split_ifs <;> omega

theorem volumeWhere_mono (hpq : ∀ s, p s → q s) (xs : List α) :
    volumeWhere start vol p xs ≤ volumeWhere start vol q xs := by
  induction xs with
  | nil => exact Nat.le_refl _
  | cons x xs ih =>
    rw [volumeWhere_cons, volumeWhere_cons]
    refine Nat.add_le_add ?_ ih
    split_ifs with hp hq
    · exact Nat.le_refl _
    · exact absurd (hpq _ hp) hq
    · exact Nat.zero_le _
    · exact Nat.le_refl _

/-- The volume in fewer places is the same exactly if what is left out has no volume. -/
theorem volumeWhere_eq_iff (hpq : ∀ s, p s → q s) (xs : List α) :
    volumeWhere start vol p xs = volumeWhere start vol q xs ↔
      ∀ x ∈ xs, q (start x) → p (start x) ∨ vol x = 0 := by
  induction xs with
  | nil => exact iff_of_true rfl fun x hx => absurd hx List.not_mem_nil
  | cons x xs ih =>
    have hle : volumeWhere start vol p xs ≤ volumeWhere start vol q xs := volumeWhere_mono hpq xs
    rw [volumeWhere_cons, volumeWhere_cons, List.forall_mem_cons, ← ih]
    by_cases hq : q (start x) = true
    · by_cases hp : p (start x) = true
      · rw [if_pos hp, if_pos hq, and_iff_right fun _ => .inl hp]
        omega
      · have hhead : (q (start x) = true → p (start x) = true ∨ vol x = 0) ↔ vol x = 0 :=
          ⟨fun h => (h hq).resolve_left hp, fun h _ => .inr h⟩
        rw [if_neg hp, if_pos hq, hhead]
        omega
    · rw [if_neg fun hp => hq (hpq _ hp), if_neg hq, and_iff_right fun h => absurd h hq]
      omega

end Volumes

/-- An element of a sorted list is among the last `k` exactly if fewer than `k` are larger. -/
theorem mem_rtake_iff_of_sorted {l : List ℕ} (hsorted : l.Pairwise (· < ·)) {k s : ℕ} (hs : s ∈ l) :
    s ∈ l.rtake k ↔ (l.filter (s < ·)).length < k := by
  obtain ⟨before, after, rfl⟩ := List.append_of_mem hs
  obtain ⟨-, htail, hcross⟩ := List.pairwise_append.mp hsorted
  obtain ⟨hafter, -⟩ := List.pairwise_cons.mp htail
  have hlarger : (before ++ s :: after).filter (s < ·) = after := by
    have hnone : before.filter (s < ·) = [] := by
      rw [List.filter_eq_nil_iff]
      intro x hx
      have hlt := hcross x hx s List.mem_cons_self
      simpa using hlt.le
    have hall : after.filter (s < ·) = after := by
      rw [List.filter_eq_self]
      intro x hx
      simpa using hafter x hx
    rw [List.filter_append, hnone, List.filter_cons_of_neg (by simp), hall, List.nil_append]
  rw [hlarger, List.rtake]
  rcases Nat.lt_or_ge after.length k with hshort | hlong
  · refine iff_of_true ?_ hshort
    rw [List.drop_append_of_le_length (by rw [List.length_append, List.length_cons]; omega)]
    exact List.mem_append_right _ List.mem_cons_self
  · refine iff_of_false (fun hmem => ?_) (Nat.not_lt.mpr hlong)
    have hskip : (before ++ s :: after).length - k = before.length + (after.length - k + 1) := by
      rw [List.length_append, List.length_cons]
      omega
    rw [hskip, List.drop_length_add_append, List.drop_succ_cons] at hmem
    exact absurd (hafter s (List.mem_of_mem_drop hmem)) (Nat.lt_irrefl s)

/-! ## What the buckets stand for -/

/-- The start of the bucket of a trade. -/
def Trade.bucket (size : UInt64) (t : Trade) : ℕ := (bucketStart size t.atNs).toNat

/-- The volume of some trades on a side. -/
def totalVolume (side : Side) (trades : List Trade) : ℕ :=
  (trades.map fun t => (t.volumeOf side).toNat).sum

namespace RollingDelta

/-- The buckets of a window: `closed` are all that were closed, of which it holds the latest. -/
structure Holds (d : RollingDelta) (closed : List DeltaBucket) (trades : List Trade) : Prop where
  ring : d.buckets.iter = closed.drop (closed.length - rollingDeltaBuckets)
  unopened : d.openInitialised = false → closed = []
  sorted : ((closed ++ d.opened).map (·.bucketStartNs.toNat)).Pairwise (· < ·)
  starts : ∀ s, s ∈ (closed ++ d.opened).map (·.bucketStartNs.toNat) ↔
    s ∈ trades.map (Trade.bucket d.bucketSizeNs)
  volumes : ∀ side p,
    volumeWhere (·.bucketStartNs.toNat) (fun b => (b.volumeOf side).toNat) p (closed ++ d.opened)
      = volumeWhere (Trade.bucket d.bucketSizeNs) (fun t => (t.volumeOf side).toNat) p trades

theorem holds_withWindow (windowNs : UInt64) : Holds (withWindow windowNs) [] [] where
  ring := RingWindow.iter_new _ _
  unopened _ := rfl
  sorted := List.Pairwise.nil
  starts _ := Iff.rfl
  volumes _ _ := rfl

section Record

variable {d : RollingDelta} {closed : List DeltaBucket} {trades : List Trade}

/-- A bucket that is opened after all others. -/
theorem Holds.append (h : Holds d closed trades) {d' : RollingDelta} {closed' : List DeltaBucket}
    {trade : Trade} (hsize : d'.bucketSizeNs = d.bucketSizeNs)
    (hring : d'.buckets.iter = closed'.drop (closed'.length - rollingDeltaBuckets))
    (hopened : d'.openInitialised = true)
    (hall : closed' ++ d'.opened = (closed ++ d.opened) ++
      [⟨bucketStart d.bucketSizeNs trade.atNs, trade.buyerVolume, trade.sellerVolume⟩])
    (hlater : ∀ b ∈ closed ++ d.opened,
      b.bucketStartNs.toNat < (bucketStart d.bucketSizeNs trade.atNs).toNat) :
    Holds d' closed' (trades ++ [trade]) where
  ring := hring
  unopened hnot := by rw [hopened] at hnot; cases hnot
  sorted := by
    rw [hall, List.map_append, List.map_singleton, List.pairwise_append]
    refine ⟨h.sorted, List.pairwise_singleton _ _, ?_⟩
    intro s hs s' hs'
    obtain ⟨b, hb, rfl⟩ := List.mem_map.mp hs
    rw [List.mem_singleton.mp hs']
    exact hlater b hb
  starts s := by
    rw [hall, hsize, List.map_append, List.mem_append, h.starts, List.map_append, List.mem_append]
    rfl
  volumes side p := by
    have hsame : (DeltaBucket.volumeOf ⟨bucketStart d.bucketSizeNs trade.atNs, trade.buyerVolume,
        trade.sellerVolume⟩ side).toNat = (trade.volumeOf side).toNat := by cases side <;> rfl
    rw [hall, hsize, volumeWhere_append (closed ++ d.opened), volumeWhere_append trades, h.volumes,
      volumeWhere_singleton, volumeWhere_singleton, hsame]
    rfl

/-- The open bucket takes another trade. -/
theorem Holds.accumulate (h : Holds d closed trades) (hopened : d.openInitialised = true)
    {trade : Trade} {b : DeltaBucket} (hstart : b.bucketStartNs = d.openBucket.bucketStartNs)
    (hbucket : bucketStart d.bucketSizeNs trade.atNs = b.bucketStartNs)
    (hvolume : ∀ side, (b.volumeOf side).toNat
      = (d.openBucket.volumeOf side).toNat + (trade.volumeOf side).toNat) :
    Holds { d with openBucket := b } closed (trades ++ [trade]) := by
  have hall : closed ++ d.opened = closed ++ [d.openBucket] := by rw [opened_of_initialised hopened]
  have hall' : closed ++ opened { d with openBucket := b } = closed ++ [b] :=
    congrArg (closed ++ ·) (if_pos hopened)
  have hstarts : (closed ++ opened { d with openBucket := b }).map (·.bucketStartNs.toNat)
      = (closed ++ d.opened).map (·.bucketStartNs.toNat) := by
    rw [hall, hall', List.map_append, List.map_append, List.map_singleton, List.map_singleton,
      hstart]
  refine ⟨h.ring, h.unopened, hstarts ▸ h.sorted, fun s => ?_, fun side p => ?_⟩
  · have hold : trade.bucket d.bucketSizeNs ∈ trades.map (Trade.bucket d.bucketSizeNs) := by
      rw [← h.starts, hall, Trade.bucket, hbucket, hstart]
      exact List.mem_map_of_mem (List.mem_append_right _ (List.mem_singleton_self _))
    rw [hstarts, h.starts, List.map_append, List.mem_append, List.map_singleton,
      List.mem_singleton]
    constructor
    · exact .inl
    · rintro (hs | rfl)
      · exact hs
      · exact hold
  · have hold := h.volumes side p
    rw [hall, volumeWhere_append, volumeWhere_singleton, ← hstart] at hold
    rw [hall', volumeWhere_append, volumeWhere_singleton, volumeWhere_append,
      volumeWhere_singleton, hvolume side, Trade.bucket, hbucket]
    dsimp only
    split_ifs at hold ⊢ <;> omega

/-- The open bucket has no more volume than the trades. -/
theorem Holds.openBucket_le (h : Holds d closed trades) (hopened : d.openInitialised = true)
    (side : Side) : (d.openBucket.volumeOf side).toNat ≤ totalVolume side trades := by
  have hall := h.volumes side fun _ => true
  rw [opened_of_initialised hopened, volumeWhere_append, volumeWhere_singleton, if_pos rfl] at hall
  have hle : volumeWhere (Trade.bucket d.bucketSizeNs) (fun t => (t.volumeOf side).toNat)
      (fun _ => true) trades ≤ _ := volumeWhere_le_sum trades
  rw [totalVolume]
  omega

theorem totalVolume_concat (side : Side) (trades : List Trade) (trade : Trade) :
    totalVolume side (trades ++ [trade])
      = totalVolume side trades + (trade.volumeOf side).toNat := by
  rw [totalVolume, List.map_append, List.sum_append, List.map_singleton, List.sum_singleton,
    totalVolume]

theorem bucket_mono (size : UInt64) {t t' : Trade} (h : t.atNs.toNat ≤ t'.atNs.toNat) :
    t.bucket size ≤ t'.bucket size := by
  rw [Trade.bucket, Trade.bucket, toNat_bucketStart, toNat_bucketStart]
  exact Nat.mul_le_mul_right _ (Nat.div_le_div_right h)

/-- The buckets of a trade no earlier than those before it, in a bucket that is not the open one. -/
theorem Holds.lt_bucket (h : Holds d closed trades) (hopened : d.openInitialised = true)
    {trade : Trade} (hnow : ∀ t ∈ trades, t.atNs.toNat ≤ trade.atNs.toNat)
    (hne : bucketStart d.bucketSizeNs trade.atNs ≠ d.openBucket.bucketStartNs) {b : DeltaBucket}
    (hb : b ∈ closed ++ d.opened) : b.bucketStartNs.toNat < trade.bucket d.bucketSizeNs := by
  have hle : ∀ b ∈ closed ++ d.opened, b.bucketStartNs.toNat ≤ trade.bucket d.bucketSizeNs := by
    intro b hb
    obtain ⟨t, ht, heq⟩ := List.mem_map.mp ((h.starts _).mp (List.mem_map_of_mem hb))
    exact heq ▸ bucket_mono _ (hnow t ht)
  have hlast : d.openBucket.bucketStartNs.toNat < trade.bucket d.bucketSizeNs := by
    refine Nat.lt_of_le_of_ne (hle _ ?_) fun heq => hne (UInt64.toNat_inj.mp heq.symm)
    rw [opened_of_initialised hopened]
    exact List.mem_append_right _ (List.mem_singleton_self _)
  have hsorted := h.sorted
  rw [opened_of_initialised hopened, List.map_append, List.pairwise_append] at hsorted
  rw [opened_of_initialised hopened] at hb
  rcases List.mem_append.mp hb with hclosed | hopen
  · exact (hsorted.2.2 _ (List.mem_map_of_mem hclosed) _ (List.mem_singleton_self _)).trans hlast
  · rwa [List.mem_singleton.mp hopen]

/-- One step: the buckets stand for the trade that is recorded as well. -/
theorem Holds.record (h : Holds d closed trades) (trade : Trade)
    (hnow : ∀ t ∈ trades, t.atNs.toNat ≤ trade.atNs.toNat)
    (hfits : ∀ side, totalVolume side (trades ++ [trade]) < 2 ^ 64) :
    ∃ closed', Holds (d.record trade.atNs trade.buyerVolume trade.sellerVolume) closed'
      (trades ++ [trade]) := by
  unfold RollingDelta.record
  dsimp only
  split_ifs with hunopened hsame
  · have hnil := h.unopened hunopened
    have hnone : d.opened = [] := by rw [opened, hunopened]; rfl
    refine ⟨closed, h.append rfl h.ring rfl ?_ ?_⟩
    · rw [hnone, hnil]
      rfl
    · rw [hnone, hnil]
      exact fun b hb => absurd hb List.not_mem_nil
  · have hopened : d.openInitialised = true := Bool.eq_true_of_not_eq_false hunopened
    refine ⟨closed, h.accumulate hopened rfl hsame fun side => ?_⟩
    have hopen := h.openBucket_le hopened side
    have htotal := hfits side
    rw [totalVolume_concat] at htotal
    cases side <;> exact (UInt64.toNat_saturatingAdd _ _).trans (Nat.min_eq_left (by
      simp only [DeltaBucket.volumeOf, Trade.volumeOf] at hopen htotal
      omega))
  · have hopened : d.openInitialised = true := Bool.eq_true_of_not_eq_false hunopened
    refine ⟨closed ++ [d.openBucket], h.append rfl ?_ hopened ?_ fun b hb =>
      h.lt_bucket hopened hnow hsame hb⟩
    · exact RingWindow.iter_push_of_eq h.ring _
    · rw [opened_of_initialised hopened]
      exact congrArg (closed ++ [d.openBucket] ++ ·) (if_pos hopened)

end Record

/-! ## Readings -/

/-- The window after some trades. -/
def recorded (windowNs : UInt64) (trades : List Trade) : RollingDelta :=
  trades.foldl (fun d t => d.record t.atNs t.buyerVolume t.sellerVolume) (.withWindow windowNs)

theorem recorded_concat (windowNs : UInt64) (trades : List Trade) (t : Trade) :
    recorded windowNs (trades ++ [t])
      = (recorded windowNs trades).record t.atNs t.buyerVolume t.sellerVolume :=
  List.foldl_concat ..

theorem recorded_config (windowNs : UInt64) (trades : List Trade) :
    (recorded windowNs trades).windowNs = windowNs
      ∧ (recorded windowNs trades).bucketSizeNs = max (windowNs / 300) 1 := by
  induction trades using List.reverseRecOn with
  | nil => exact ⟨rfl, rfl⟩
  | append_singleton trades t ih =>
    obtain ⟨hwindow, hsize⟩ := record_config (recorded windowNs trades) t.atNs t.buyerVolume
      t.sellerVolume
    rw [recorded_concat]
    exact ⟨hwindow.trans ih.1, hsize.trans ih.2⟩

/-- Trades in the order of their times. -/
def InOrder (trades : List Trade) : Prop := (trades.map (·.atNs.toNat)).Pairwise (· ≤ ·)

instance (trades : List Trade) : Decidable (InOrder trades) :=
  inferInstanceAs (Decidable (List.Pairwise _ _))

theorem holds_recorded (windowNs : UInt64) {trades : List Trade} (horder : InOrder trades)
    (hfits : ∀ side, totalVolume side trades < 2 ^ 64) :
    ∃ closed, Holds (recorded windowNs trades) closed trades := by
  induction trades using List.reverseRecOn with
  | nil => exact ⟨[], holds_withWindow windowNs⟩
  | append_singleton trades t ih =>
    rw [InOrder, List.map_append, List.pairwise_append] at horder
    obtain ⟨hbefore, -, hlast⟩ := horder
    have hfits' : ∀ side, totalVolume side trades < 2 ^ 64 := by
      intro side
      have htotal := hfits side
      rw [totalVolume_concat] at htotal
      omega
    obtain ⟨closed, hholds⟩ := ih hbefore hfits'
    rw [recorded_concat]
    refine hholds.record t (fun t' ht' => ?_) hfits
    exact hlast _ (List.mem_map_of_mem ht') _ (List.mem_singleton_self _)

section Read

variable {d : RollingDelta} {closed : List DeltaBucket} {trades : List Trade}

theorem Holds.held_eq (h : Holds d closed trades) :
    d.held = (closed ++ d.opened).rtake (rollingDeltaBuckets + 1) := by
  rw [RollingDelta.held, h.ring, List.rtake]
  cases hopened : d.openInitialised with
  | false =>
    have hnone : d.opened = [] := by rw [opened, hopened]; rfl
    rw [h.unopened hopened, hnone]
    rfl
  | true =>
    rw [opened_of_initialised hopened, List.length_append, List.length_singleton,
      Nat.add_sub_add_right, List.drop_append_of_le_length (Nat.sub_le _ _)]

/-- The volume of the latest buckets is that of the buckets with few later ones. -/
theorem volumeWhere_rtake {α : Type*} {start vol : α → ℕ} (p : ℕ → Bool) {xs : List α}
    (hsorted : (xs.map start).Pairwise (· < ·)) (k : ℕ) :
    volumeWhere start vol p (xs.rtake k)
      = volumeWhere start vol (fun s => p s && ((xs.map start).filter (s < ·)).length < k) xs := by
  have hsplit := List.take_append_drop (xs.length - k) xs
  have hdrop : (xs.map start).rtake k = (xs.rtake k).map start := by
    rw [List.rtake, List.rtake, List.length_map, List.map_drop]
  have hlate : ∀ x ∈ xs.rtake k, ((xs.map start).filter (start x < ·)).length < k := by
    intro x hx
    refine (mem_rtake_iff_of_sorted hsorted (List.mem_map_of_mem (List.mem_of_mem_drop hx))).mp ?_
    rw [hdrop]
    exact List.mem_map_of_mem hx
  have hearly : ∀ x ∈ xs.take (xs.length - k),
      ¬ ((xs.map start).filter (start x < ·)).length < k := by
    intro x hx hmany
    have hmem := (mem_rtake_iff_of_sorted hsorted
      (List.mem_map_of_mem (List.mem_of_mem_take hx))).mpr hmany
    rw [hdrop] at hmem
    obtain ⟨y, hy, heq⟩ := List.mem_map.mp hmem
    rw [← hsplit, List.map_append, List.pairwise_append] at hsorted
    exact absurd (hsorted.2.2 _ (List.mem_map_of_mem hx) _ (List.mem_map_of_mem hy))
      (heq ▸ Nat.lt_irrefl _)
  conv_rhs => arg 4; rw [← hsplit]
  rw [volumeWhere_append, volumeWhere, volumeWhere, volumeWhere]
  have hnone : (xs.take (xs.length - k)).filter (fun x =>
      p (start x) && decide (((xs.map start).filter (start x < ·)).length < k)) = [] := by
    rw [List.filter_eq_nil_iff]
    intro x hx
    simp [hearly x hx]
  have hall : (xs.drop (xs.length - k)).filter (fun x =>
      p (start x) && decide (((xs.map start).filter (start x < ·)).length < k))
      = (xs.drop (xs.length - k)).filter fun x => p (start x) := by
    refine List.filter_congr fun x hx => ?_
    rw [decide_eq_true (hlate x hx), Bool.and_true]
  rw [hnone, hall, List.map_nil, List.sum_nil, Nat.zero_add, List.rtake]

/-- How many different buckets after a time were recorded. -/
def laterBuckets (size : UInt64) (trades : List Trade) (s : ℕ) : ℕ :=
  ((trades.map (Trade.bucket size)).filter (s < ·)).dedup.length

theorem Holds.length_later (h : Holds d closed trades) (s : ℕ) :
    (((closed ++ d.opened).map (·.bucketStartNs.toNat)).filter (s < ·)).length
      = laterBuckets d.bucketSizeNs trades s := by
  have hnodup : ((closed ++ d.opened).map (·.bucketStartNs.toNat)).Nodup :=
    h.sorted.imp fun hlt => Nat.ne_of_lt hlt
  refine ((List.perm_ext_iff_of_nodup (hnodup.filter _) (List.nodup_dedup _)).mpr
    fun s' => ?_).length_eq
  rw [List.mem_dedup, List.mem_filter, List.mem_filter, h.starts]

/-- A reading counts the trades since the cutoff whose bucket is one of the latest 301. -/
theorem Holds.toNat_volume (h : Holds d closed trades) (side : Side)
    (hfits : totalVolume side trades < 2 ^ 64) (nowNs : UInt64) :
    (d.volume side nowNs).toNat =
      volumeWhere (Trade.bucket d.bucketSizeNs) (fun t => (t.volumeOf side).toNat)
        (fun s => nowNs.toNat - d.windowNs.toNat ≤ s &&
          laterBuckets d.bucketSizeNs trades s < rollingDeltaBuckets + 1) trades := by
  have hle : volumeWhere (Trade.bucket d.bucketSizeNs) (fun t => (t.volumeOf side).toNat)
      (fun s => nowNs.toNat - d.windowNs.toNat ≤ s &&
        laterBuckets d.bucketSizeNs trades s < rollingDeltaBuckets + 1) trades ≤ _ :=
    volumeWhere_le_sum trades
  rw [totalVolume] at hfits
  rw [RollingDelta.volume, h.held_eq, volumeSince_eq_volumeWhere, UInt64.toNat_saturatingSub,
    volumeWhere_rtake _ h.sorted]
  simp only [h.length_later]
  rw [h.volumes, UInt64.toNat_ofNat', Nat.mod_eq_of_lt (by omega)]
  omega

end Read

/-! ## When a reading is exact -/

/-- The volume of the trades of a side whose bucket starts in the window. -/
def windowVolume (windowNs nowNs : UInt64) (side : Side) (trades : List Trade) : ℕ :=
  let b := max 1 (windowNs.toNat / rollingDeltaBuckets)
  volumeSince (fun t : Trade => t.atNs.toNat / b * b) (fun t => (t.volumeOf side).toNat)
    (nowNs.toNat - windowNs.toNat) trades

/-- The readings are those of the trades of the window. -/
def ReadsWindow (windowNs nowNs : UInt64) (trades : List Trade) : Prop :=
  ((recorded windowNs trades).buyerVolume nowNs).toNat = windowVolume windowNs nowNs .buy trades
    ∧ ((recorded windowNs trades).sellerVolume nowNs).toNat
      = windowVolume windowNs nowNs .sell trades
    ∧ (recorded windowNs trades).signedDelta nowNs
      = Int64.clamp (windowVolume windowNs nowNs .buy trades
        - windowVolume windowNs nowNs .sell trades)

/-- Every trade with volume whose bucket starts in the window lies in one of the latest 301
buckets. -/
def LatestCover (windowNs nowNs : UInt64) (trades : List Trade) : Prop :=
  let b := max 1 (windowNs.toNat / rollingDeltaBuckets)
  ∀ t ∈ trades, nowNs.toNat - windowNs.toNat ≤ t.atNs.toNat / b * b →
    ((trades.map fun t' => t'.atNs.toNat / b * b).filter (t.atNs.toNat / b * b < ·)).dedup.length
        < rollingDeltaBuckets + 1
      ∨ (t.buyerVolume = 0 ∧ t.sellerVolume = 0)

theorem toNat_bucketSize (windowNs : UInt64) :
    (max (windowNs / 300) 1 : UInt64).toNat = max 1 (windowNs.toNat / rollingDeltaBuckets) := by
  have hdiv : (windowNs / 300).toNat = windowNs.toNat / 300 := UInt64.toNat_div _ _
  have hmax : ∀ a b : UInt64, (max a b).toNat = max a.toNat b.toNat := by
    intro a b
    change (if a ≤ b then b else a).toNat = _
    rw [apply_ite UInt64.toNat, max_def]
    simp only [UInt64.le_iff_toNat_le]
  rw [hmax, hdiv, max_comm]
  rfl

theorem bucket_eq (windowNs : UInt64) (t : Trade) :
    t.bucket (max (windowNs / 300) 1) =
      t.atNs.toNat / max 1 (windowNs.toNat / rollingDeltaBuckets)
        * max 1 (windowNs.toNat / rollingDeltaBuckets) := by
  rw [Trade.bucket, toNat_bucketStart, toNat_bucketSize]

section Exact

variable (windowNs nowNs : UInt64) {trades : List Trade}

/-- The reading of a side is that of the window exactly if no volume of the window has fallen out. -/
theorem volume_eq_windowVolume_iff (horder : InOrder trades)
    (hfits : ∀ side, totalVolume side trades < 2 ^ 64) (side : Side) :
    ((recorded windowNs trades).volume side nowNs).toNat = windowVolume windowNs nowNs side trades ↔
      let size := max (windowNs / 300) 1
      ∀ t ∈ trades, nowNs.toNat - windowNs.toNat ≤ t.bucket size →
        laterBuckets size trades (t.bucket size) < rollingDeltaBuckets + 1 ∨
          (t.volumeOf side).toNat = 0 := by
  obtain ⟨closed, hholds⟩ := holds_recorded windowNs horder hfits
  obtain ⟨hwindow, hsize⟩ := recorded_config windowNs trades
  have hbucket : (fun t : Trade => t.atNs.toNat / max 1 (windowNs.toNat / rollingDeltaBuckets)
      * max 1 (windowNs.toNat / rollingDeltaBuckets)) = Trade.bucket (max (windowNs / 300) 1) :=
    funext fun t => (bucket_eq windowNs t).symm
  have hreading := hholds.toNat_volume side (hfits side) nowNs
  rw [hwindow, hsize] at hreading
  rw [hreading, windowVolume, hbucket, volumeSince_eq_volumeWhere,
    volumeWhere_eq_iff (fun s hs => (Bool.and_eq_true_iff.mp hs).1)]
  refine forall₂_congr fun t _ => ?_
  simp only [Bool.and_eq_true, decide_eq_true_eq]
  constructor
  · exact fun h hin => (h hin).imp_left And.right
  · exact fun h hin => (h hin).imp_left fun hlate => ⟨hin, hlate⟩

/-- The readings are those of the trades of the window exactly if no trade of the window has fallen
out of the buckets that are held. -/
theorem readsWindow_iff (horder : InOrder trades)
    (hfits : ∀ side, totalVolume side trades < 2 ^ 64) :
    ReadsWindow windowNs nowNs trades ↔ LatestCover windowNs nowNs trades := by
  have hbuy := volume_eq_windowVolume_iff windowNs nowNs horder hfits .buy
  have hsell := volume_eq_windowVolume_iff windowNs nowNs horder hfits .sell
  have hstarts : trades.map (fun t' : Trade =>
      t'.atNs.toNat / max 1 (windowNs.toNat / rollingDeltaBuckets)
        * max 1 (windowNs.toNat / rollingDeltaBuckets))
      = trades.map (Trade.bucket (max (windowNs / 300) 1)) :=
    List.map_congr_left fun t _ => (bucket_eq windowNs t).symm
  have hzero : ∀ v : UInt64, v.toNat = 0 ↔ v = 0 := fun v => by
    rw [← UInt64.toNat_inj]
    rfl
  have hcover : LatestCover windowNs nowNs trades ↔
      (∀ t ∈ trades, nowNs.toNat - windowNs.toNat ≤ t.bucket (max (windowNs / 300) 1) →
        laterBuckets (max (windowNs / 300) 1) trades (t.bucket (max (windowNs / 300) 1))
            < rollingDeltaBuckets + 1 ∨ (t.buyerVolume = 0 ∧ t.sellerVolume = 0)) := by
    rw [LatestCover]
    refine forall₂_congr fun t _ => ?_
    rw [hstarts, ← bucket_eq, laterBuckets]
  rw [hcover]
  constructor
  · rintro ⟨hbuyer, hseller, -⟩ t ht hin
    have hmissed := hbuy.mp hbuyer t ht hin
    have hmissed' := hsell.mp hseller t ht hin
    by_cases hlate : laterBuckets (max (windowNs / 300) 1) trades
        (t.bucket (max (windowNs / 300) 1)) < rollingDeltaBuckets + 1
    · exact .inl hlate
    · exact .inr ⟨(hzero _).mp (hmissed.resolve_left hlate),
        (hzero _).mp (hmissed'.resolve_left hlate)⟩
  · intro h
    have hbuyer := hbuy.mpr fun t ht hin => (h t ht hin).imp_right fun hnone => (hzero _).mpr hnone.1
    have hseller := hsell.mpr fun t ht hin =>
      (h t ht hin).imp_right fun hnone => (hzero _).mpr hnone.2
    refine ⟨hbuyer, hseller, ?_⟩
    rw [signedDelta, buyerVolume, sellerVolume, hbuyer, hseller]

end Exact

/-- A purchase of one in each of the first nanoseconds. -/
def eachNs (count : ℕ) : List Trade := (List.range count).map fun i => ⟨UInt64.ofNat i, 1, 0⟩

theorem inOrder_eachNs {count : ℕ} (h : count ≤ 2 ^ 64) : InOrder (eachNs count) := by
  rw [InOrder, eachNs, List.map_map, List.pairwise_map]
  refine List.pairwise_lt_range.imp_of_mem fun {i j} hi hj hlt => ?_
  have hi := List.mem_range.mp hi
  have hj := List.mem_range.mp hj
  rw [Function.comp_apply, Function.comp_apply, UInt64.toNat_ofNat', UInt64.toNat_ofNat',
    Nat.mod_eq_of_lt (by omega), Nat.mod_eq_of_lt (by omega)]
  exact hlt.le

/-- A window that is no multiple of three hundred: two trades, and both count. -/
theorem readsWindow_iff_two : ReadsWindow 599 1 (eachNs 2) :=
  (readsWindow_iff 599 1 (inOrder_eachNs (by decide)) fun side => by cases side <;> decide).mpr
    (by unfold LatestCover; decide)

/-- A window of 599 nanoseconds has 600 buckets of one nanosecond, of which 301 are held. -/
theorem not_readsWindow_eachNs :
    InOrder (eachNs 302)
      ∧ ((recorded 599 (eachNs 302)).buyerVolume 301).toNat = 301
      ∧ windowVolume 599 301 .buy (eachNs 302) = 302
      ∧ ¬ ReadsWindow 599 301 (eachNs 302) := by
  have hread : ((recorded 599 (eachNs 302)).buyerVolume 301).toNat = 301 := by decide +kernel
  have hwindow : windowVolume 599 301 .buy (eachNs 302) = 302 := by decide +kernel
  refine ⟨inOrder_eachNs (by decide), hread, hwindow, fun h => ?_⟩
  have hsame := h.1
  rw [hread, hwindow] at hsame
  exact absurd hsame (by decide)

end RollingDelta

end Hedge.Orderflow
