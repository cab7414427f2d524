import Hedge.Replay.Player
import Mathlib.Data.List.Chain

/-!
# When the paced stream releases its records

Reference: `PacedReplay::poll_next` in `hedge-replay/src/player.rs`.

`releases` drives the stream with an ideal timer: a consumer that polls at once, and again exactly
at the deadline it has been told to wait for. `releases_eq_schedule` gives the time of every release.
The delay of a record is the gap to the record before it, but the stream returns the record first
and sleeps afterwards, so that each gap is spent one record late: the second record follows the
first at once, and the third comes after the gap between the first two.
-/

namespace Hedge.Replay

open Hedge.Common

namespace PacedReplay

/-- The releases of the stream with their times, within `fuel` polls. The consumer polls again at
once after a release, and at the deadline after `Pending`. -/
def releases : ℕ → ℕ → PacedReplay → List (ℕ × ReplayRecord)
  | 0, _, _ => []
  | fuel + 1, now, stream =>
    match stream.pollNext now with
    | (.ready none, _) => []
    | (.ready (some record), stream) => (now, record) :: releases fuel now stream
    | (.pending, stream) => releases fuel (stream.sleep.getD now) stream

/-- The releases that are due: the first record at the time `t`, each further one after the delay
of the record before it. -/
def schedule (speed : ReplaySpeed) : ℕ → Option UInt64 → List ReplayRecord → List (ℕ × ReplayRecord)
  | _, _, [] => []
  | t, last, record :: records =>
    (t, record) :: schedule speed (t + delay speed last record) (some record.monotonicNs) records

@[simp] theorem map_snd_schedule (speed : ReplaySpeed) (t : ℕ) (last : Option UInt64)
    (records : List ReplayRecord) : (schedule speed t last records).map Prod.snd = records := by
  induction records generalizing t last with
  | nil => rfl
  | cons record records ih => rw [schedule, List.map_cons, ih]

/-- A release leaves the stream asleep until the delay of the record is over. -/
theorem release_cons (stream : PacedReplay) {record : ReplayRecord} {records : List ReplayRecord}
    (h : stream.player.records.drop stream.player.cursor = record :: records)
    (hsleep : stream.sleep = none) (now : ℕ) :
    ∃ stream', stream.release now = (.ready (some record), stream') ∧
      stream'.player.records.drop stream'.player.cursor = records ∧
      stream'.speed = stream.speed ∧ stream'.lastMonotonicNs = some record.monotonicNs ∧
      stream'.sleep.getD now = now + delay stream.speed stream.lastMonotonicNs record := by
  have hget : stream.player.records[stream.player.cursor]? = some record := by
    rw [← List.head?_drop, h, List.head?_cons]
  have hrest : stream.player.records.drop (stream.player.cursor + 1) = records := by
    rw [← List.drop_drop, h, List.drop_one, List.tail_cons]
  simp only [release, Player.step, hget]
  split_ifs with hzero
  · exact ⟨_, rfl, hrest, rfl, rfl, by rw [hsleep, hzero]; rfl⟩
  · exact ⟨_, rfl, hrest, rfl, rfl, rfl⟩

theorem release_nil (stream : PacedReplay)
    (h : stream.player.records.drop stream.player.cursor = []) (now : ℕ) :
    stream.release now = (.ready none, stream) := by
  have hget : stream.player.records[stream.player.cursor]? = none :=
    List.getElem?_eq_none (List.drop_eq_nil_iff.mp h)
  simp only [release, Player.step, hget]

/-- The stream with its sleep drained. -/
def awake (stream : PacedReplay) : PacedReplay := { stream with sleep := none }

theorem pollNext_awake (stream : PacedReplay) (now : ℕ) :
    stream.awake.pollNext now = stream.awake.release now := rfl

/-- Waiting for the sleep takes one poll at most and ends at its deadline. -/
theorem releases_wake {stream : PacedReplay} {now : ℕ}
    (hsleep : ∀ deadline ∈ stream.sleep, now ≤ deadline) {fuel : ℕ} (hfuel : 2 ≤ fuel) :
    ∃ fuel', fuel ≤ fuel' + 1 ∧ releases fuel now stream
      = releases fuel' (stream.sleep.getD now) stream.awake := by
  cases hcase : stream.sleep with
  | none =>
    refine ⟨fuel, Nat.le_succ _, ?_⟩
    rw [Option.getD_none, awake, ← hcase]
  | some deadline =>
    obtain ⟨fuel, rfl⟩ : ∃ n, fuel = n + 2 := ⟨fuel - 2, by omega⟩
    have hawake : releases (fuel + 1) deadline stream
        = releases (fuel + 1) deadline stream.awake := by
      simp only [releases, pollNext, awake, hcase, lt_irrefl, if_false]
    rw [Option.getD_some]
    rcases Nat.lt_or_eq_of_le (hsleep deadline hcase) with hlt | rfl
    · refine ⟨fuel + 1, le_refl _, ?_⟩
      rw [← hawake]
      conv_lhs => rw [releases]
      simp only [pollNext, hcase, if_pos hlt, Option.getD_some]
    · refine ⟨fuel + 2, Nat.le_succ _, ?_⟩
      simp only [releases, pollNext, awake, hcase, lt_irrefl, if_false]

/-- **The releases of the stream.** Enough polls release every record from the cursor on, at the
times of the schedule. -/
theorem releases_eq_schedule {stream : PacedReplay} {now : ℕ} {records : List ReplayRecord}
    (hrecords : stream.player.records.drop stream.player.cursor = records)
    (hsleep : ∀ deadline ∈ stream.sleep, now ≤ deadline) {fuel : ℕ}
    (hfuel : 2 * records.length + 2 ≤ fuel) :
    releases fuel now stream
      = schedule stream.speed (stream.sleep.getD now) stream.lastMonotonicNs records := by
  induction records generalizing stream now fuel with
  | nil =>
    obtain ⟨fuel', hle, heq⟩ := releases_wake hsleep (by omega : 2 ≤ fuel)
    obtain ⟨n, rfl⟩ : ∃ n, fuel' = n + 1 := ⟨fuel' - 1, by simp at hfuel; omega⟩
    have hend : stream.awake.release (stream.sleep.getD now) = (.ready none, stream.awake) :=
      release_nil stream.awake hrecords _
    rw [heq, releases, pollNext_awake, hend]
    rfl
  | cons record records ih =>
    obtain ⟨fuel', hle, heq⟩ := releases_wake hsleep (by omega : 2 ≤ fuel)
    obtain ⟨n, rfl⟩ : ∃ n, fuel' = n + 1 := ⟨fuel' - 1, by simp at hfuel; omega⟩
    obtain ⟨next, hrelease, hrest, hspeed, hlast, hasleep⟩ :=
      release_cons stream.awake hrecords rfl (stream.sleep.getD now)
    have hnext : releases n (stream.sleep.getD now) next
        = schedule next.speed (next.sleep.getD (stream.sleep.getD now)) next.lastMonotonicNs
            records := by
      refine ih hrest (fun deadline hdeadline => ?_) ?_
      · rw [hdeadline, Option.getD_some] at hasleep
        omega
      · rw [List.length_cons] at hfuel
        omega
    rw [heq, releases, pollNext_awake, hrelease]
    simp only
    rw [hnext, hasleep, hspeed, hlast, schedule]
    rfl

/-! ## Pacing -/

/-- The recorded nanoseconds between two records. -/
def gap (a b : ReplayRecord) : ℕ := b.monotonicNs.toNat - a.monotonicNs.toNat

theorem delay_some {speed : ReplaySpeed} {div : UInt32} (hspeed : speed.divisor = some div)
    (a b : ReplayRecord) : delay speed (some a.monotonicNs) b = gap a b / div.toNat := by
  simp only [delay, hspeed, gap]
  split_ifs with hlt
  · rw [UInt64.toNat_div, UInt64.toNat_sub_of_le _ _ (UInt64.le_of_lt hlt), UInt32.toNat_toUInt64]
  · rw [UInt64.lt_iff_toNat_lt] at hlt
    rw [Nat.sub_eq_zero_of_le (by omega), Nat.zero_div]

/-- The releases keep the recorded distances, divided by the speed. -/
def Paced (div : UInt32) (releases : List (ℕ × ReplayRecord)) : Prop :=
  releases.IsChain fun a b => b.1 = a.1 + gap a.2 b.2 / div.toNat

instance (div : UInt32) (releases : List (ℕ × ReplayRecord)) : Decidable (Paced div releases) :=
  inferInstanceAs (Decidable (List.IsChain _ _))

theorem divisor_pos {speed : ReplaySpeed} {div : UInt32} (hspeed : speed.divisor = some div) :
    0 < div.toNat := by
  cases speed <;> cases hspeed <;> decide

/-- While nothing has been slept the schedule is paced only if there is nothing to sleep. -/
theorem paced_schedule_iff {speed : ReplaySpeed} {div : UInt32}
    (hspeed : speed.divisor = some div) {last : Option UInt64} {record : ReplayRecord}
    (hzero : delay speed last record = 0) (t : ℕ) (records : List ReplayRecord) :
    Paced div (schedule speed t last (record :: records)) ↔
      (record :: records).IsChain fun a b => gap a b < div.toNat := by
  induction records generalizing record last t with
  | nil => exact iff_of_true (.singleton _) (.singleton _)
  | cons next records ih =>
    have hgap : gap record next / div.toNat = 0 ↔ gap record next < div.toNat :=
      Nat.div_eq_zero_iff_lt (divisor_pos hspeed)
    rw [schedule, schedule, Paced, List.isChain_cons_cons, List.isChain_cons_cons, ← hgap, hzero]
    constructor
    · rintro ⟨hfirst, hrest⟩
      have hnone : gap record next / div.toNat = 0 := (Nat.add_left_cancel hfirst).symm
      exact ⟨hnone, (ih ((delay_some hspeed record next).trans hnone) _).mp hrest⟩
    · rintro ⟨hnone, hrest⟩
      refine ⟨congrArg (t + ·) hnone.symm, ?_⟩
      exact (ih ((delay_some hspeed record next).trans hnone) _).mpr hrest

end PacedReplay

/-- **Pacing.** With a finite speed and an ideal timer the stream releases every record from the
cursor on and keeps the recorded distances exactly if there are none to keep: all records from the
cursor on are less than a nanosecond apart at the speed. -/
theorem play_paced_iff (player : Player) {speed : ReplaySpeed} {div : UInt32}
    (hspeed : speed.divisor = some div) (now : ℕ) {fuel : ℕ}
    (hfuel : 2 * (player.records.length - player.cursor) + 2 ≤ fuel) :
    ((player.play speed).releases fuel now).map Prod.snd = player.records.drop player.cursor ∧
      (PacedReplay.Paced div ((player.play speed).releases fuel now) ↔
        (player.records.drop player.cursor).IsChain
          fun a b => PacedReplay.gap a b < div.toNat) := by
  have hreleases : (player.play speed).releases fuel now
      = PacedReplay.schedule speed now none (player.records.drop player.cursor) :=
    PacedReplay.releases_eq_schedule rfl (fun _ h => by cases h) (by rwa [List.length_drop])
  rw [hreleases]
  refine ⟨PacedReplay.map_snd_schedule _ _ _ _, ?_⟩
  cases player.records.drop player.cursor with
  | nil => exact iff_of_true .nil .nil
  | cons record records =>
    refine PacedReplay.paced_schedule_iff hspeed ?_ now records
    simp only [PacedReplay.delay, hspeed]

/-- A player at its second record, with records taken at the given times. -/
def playerAt (times : List UInt64) : Player where
  sessionId := 1
  records := times.mapIdx fun i monotonicNs =>
    { sessionId := 1, sequenceNo := .ofNat i, monotonicNs, wallclockUtc := 0, kind := .tick,
      payload := [] }
  cursor := 1
  defaultSpeed := .x1

/-- Records of the same ten nanoseconds are paced at the tenfold speed. -/
theorem play_paced_within_ten :
    PacedReplay.Paced 10 (((playerAt [0, 50, 53, 59]).play .x10).releases 10 0) := by
  have hspeed : ReplaySpeed.x10.divisor = some 10 := rfl
  exact (play_paced_iff (playerAt [0, 50, 53, 59]) hspeed 0 (by decide)).2.mpr (by decide)

/-- Of records at 50, 55 and 62 nanoseconds the second comes at once and the third after five
nanoseconds. -/
theorem play_one_gap_late :
    ((playerAt [0, 50, 55, 62]).play .x1).releases 10 0
        = [(0, (playerAt [0, 50, 55, 62]).records[1]), (0, (playerAt [0, 50, 55, 62]).records[2]),
            (5, (playerAt [0, 50, 55, 62]).records[3])] ∧
      ¬ PacedReplay.Paced 1 (((playerAt [0, 50, 55, 62]).play .x1).releases 10 0) := by
  decide

end Hedge.Replay
