import Hedge.Replay.Segments

/-!
# The player and its paced stream

Reference: `hedge-replay/src/player.rs`, `hedge-replay/src/error.rs` and `ReplaySpeed` of
`hedge-config/src/models.rs`.

The player loads a session, checks that its records are numbered from zero without a gap, and gives
them out one by one. `PacedReplay` is the stream over it: a state machine that is polled at points
in time, here nanoseconds of an arbitrary clock. A `Sleep` is its deadline. The player's generator
of random numbers plays no part in either and is left out.
-/

namespace Hedge.Replay

open Hedge.Common

/-- `ReplayError`, less the root path every `SegmentIo` carries. -/
inductive ReplayError where
  | segmentIo (source : IoError)
  | bus (message : String)
  | sequenceInvariant (session expected got : UInt64)
  | seekNotFound (target : UInt64)
  | config (message : String)
  deriving DecidableEq, Repr

/-- `ReplaySpeed`. -/
inductive ReplaySpeed where
  | x1
  | x10
  | max
  deriving DecidableEq, Repr

/-- `ReplaySpeed::divisor`. -/
def ReplaySpeed.divisor : ReplaySpeed → Option UInt32
  | .x1 => some 1
  | .x10 => some 10
  | .max => none

/-! ## The player -/

/-- `Player`. -/
structure Player where
  sessionId : UInt64
  records : List ReplayRecord
  cursor : ℕ
  defaultSpeed : ReplaySpeed
  deriving DecidableEq, Repr

namespace Player

/-- The first record from position `i` on whose number is not its position. -/
def firstGap (sessionId : UInt64) : ℕ → List ReplayRecord → Option ReplayError
  | _, [] => none
  | i, record :: records =>
    if record.sequenceNo ≠ UInt64.ofNat i then
      some (.sequenceInvariant sessionId (.ofNat i) record.sequenceNo)
    else firstGap sessionId (i + 1) records

/-- `Player::from_records`. -/
def fromRecords (sessionId : UInt64) (records : List ReplayRecord) (defaultSpeed : ReplaySpeed) :
    Except ReplayError Player :=
  match firstGap sessionId 0 records with
  | some e => .error e
  | none => .ok { sessionId, records, cursor := 0, defaultSpeed }

/-- `Player::open`. -/
def openSession (codec : RecordCodec) (disk : Disk) (chunks : ℕ → List ℕ) (sessionId : UInt64)
    (defaultSpeed : ReplaySpeed) : Except ReplayError Player :=
  match readSession codec disk chunks sessionId with
  | .error e => .error (.segmentIo e)
  | .ok records => fromRecords sessionId records defaultSpeed

/-- `Player::step`. -/
def step (player : Player) : Option ReplayRecord × Player :=
  match player.records[player.cursor]? with
  | none => (none, player)
  | some record => (some record, { player with cursor := player.cursor + 1 })

/-- `Player::rewind`. -/
def rewind (player : Player) : Player := { player with cursor := 0 }

/-- `Player::seek`. The numbers are the positions, so that the search finds the only match. -/
def seek (player : Player) (target : UInt64) : Except ReplayError Player :=
  if player.records.length < target.toNat then .error (.seekNotFound target)
  else
    match player.records.findIdx? (·.sequenceNo = target) with
    | some idx => .ok { player with cursor := idx }
    | none =>
      if target.toNat = player.records.length then
        .ok { player with cursor := player.records.length }
      else .error (.seekNotFound target)

end Player

/-! ## The paced stream -/

/-- `Poll`. -/
inductive Poll (α : Type) where
  | ready (a : α)
  | pending
  deriving DecidableEq, Repr

/-- `PacedReplay`. -/
structure PacedReplay where
  player : Player
  speed : ReplaySpeed
  sleep : Option ℕ
  lastMonotonicNs : Option UInt64
  deriving DecidableEq, Repr

/-- `Player::play`. -/
def Player.play (player : Player) (speed : ReplaySpeed) : PacedReplay :=
  { player, speed, sleep := none, lastMonotonicNs := none }

namespace PacedReplay

/-- The pacing delay of a record relative to the previous one, in nanoseconds. -/
def delay (speed : ReplaySpeed) (last : Option UInt64) (next : ReplayRecord) : ℕ :=
  match speed.divisor, last with
  | none, _ => 0
  | some _, none => 0
  | some div, some prev =>
    if prev < next.monotonicNs then ((next.monotonicNs - prev) / div.toUInt64).toNat else 0

/-- The part of `poll_next` after the sleep has been drained. -/
def release (now : ℕ) (stream : PacedReplay) : Poll (Option ReplayRecord) × PacedReplay :=
  match stream.player.step with
  | (none, player) => (.ready none, { stream with player })
  | (some next, player) =>
    let delay := delay stream.speed stream.lastMonotonicNs next
    let stream := { stream with player, lastMonotonicNs := some next.monotonicNs }
    if delay = 0 then (.ready (some next), stream)
    else (.ready (some next), { stream with sleep := some (now + delay) })

/-- `PacedReplay::poll_next`, polled at the time `now`. -/
def pollNext (now : ℕ) (stream : PacedReplay) : Poll (Option ReplayRecord) × PacedReplay :=
  match stream.sleep with
  | some deadline =>
    if now < deadline then (.pending, stream) else release now { stream with sleep := none }
  | none => release now stream

end PacedReplay

end Hedge.Replay
