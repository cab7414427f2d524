import Hedge.Common.Streaks
import Hedge.MarketData.UpstoxFeed
import Hedge.Supervisor.Backoff

/-!
# What the Upstox bridge reports of its connection

Reference: `run_ltp_loop`, `publish_connected` and `publish_disconnected` in
`hedge-market-data/src/bin/upstox_feed.rs`, `classify_md_connection` in
`hedge-supervisor/src/detector.rs`.

A row of failed polls is reported when it starts and each time it has doubled, on a counter that
stops at the largest `u32`. So the last report on the bus lags behind the row: it carries the largest
power of two up to its length, and the cockpit says `down`, which stands for more than five errors,
from the eighth on. The supervisor takes each report of a row for a disconnect of its own.
-/

namespace Hedge.MarketData.Upstox

open Hedge Hedge.Common Hedge.Supervisor

open PolicyConfig (attemptCount)

/-! ## Reading the messages -/

/-- The connection messages among some outputs. -/
def connectionsOf (outputs : List LtpOutput) : List Json :=
  outputs.filterMap fun
    | .connection payload => some payload
    | .tick _ _ => none

/-- `data.status` of a message for the cockpit. -/
def cockpitStatus (payload : Json) : Option String :=
  ((payload.get "data").bind (·.get "status")).bind Json.asStr

/-- The supervisor reads the flat fields of a message. -/
theorem fromJson_connectionPayload (status : String) (reason : Json) (attempt : UInt32)
    (cockpit : String) (stamp : Stamp) :
    MdConnectionEvent.fromJson (connectionPayload status reason attempt cockpit stamp)
      = some ⟨source, status, attempt⟩ := by
  simp [MdConnectionEvent.fromJson, readStruct, connectionPayload, Json.isStruct, Json.required,
    Json.defaulted, Json.structField]

theorem cockpitStatus_connectionPayload (status : String) (reason : Json) (attempt : UInt32)
    (cockpit : String) (stamp : Stamp) :
    cockpitStatus (connectionPayload status reason attempt cockpit stamp) = some cockpit := by
  simp [cockpitStatus, connectionPayload]

/-! ## One turn -/

section Polls

variable (instruments : List String)

/-- The poll counts as an error. -/
def LtpPoll.failed (poll : LtpPoll) : Bool :=
  match fetchLtp instruments poll.reply with
  | .ok _ => false
  | .error _ => true

/-- The row of errors that is running, as far as the counter goes. -/
def errorRow (polls : List LtpPoll) : ℕ :=
  min (trailing (LtpPoll.failed instruments) polls) (2 ^ 32 - 1)

theorem not_isPowerOfTwo_cap : ¬(2 ^ 32 - 1).isPowerOfTwo := by decide

/-- A poll that answers resets the counter, and reports if there was something to recover from. -/
theorem ltpTurn_of_not_failed (n : UInt32) {poll : LtpPoll} (h : poll.failed instruments = false) :
    connectionsOf (ltpTurn instruments n poll).1
        = (if 0 < n then [publishConnected poll.stamp] else []) ∧
      (ltpTurn instruments n poll).2 = 0 := by
  unfold LtpPoll.failed at h
  unfold ltpTurn
  cases hfetch : fetchLtp instruments poll.reply with
  | error e =>
    rw [hfetch] at h
    cases h
  | ok items =>
    refine ⟨?_, rfl⟩
    have hticks : connectionsOf (items.entries.map fun entry => .tick entry.1 entry.2) = [] := by
      simp [connectionsOf]
    dsimp only
    rw [connectionsOf, List.filterMap_append, ← connectionsOf, ← connectionsOf, hticks,
      List.append_nil, apply_ite connectionsOf]
    rfl

/-- A poll that fails counts, and reports where the count is a power of two. -/
theorem ltpTurn_of_failed (n : UInt32) {poll : LtpPoll} (h : poll.failed instruments = true) :
    ∃ reason, connectionsOf (ltpTurn instruments n poll).1
        = (if (n.saturatingAdd 1).toNat.isPowerOfTwo then
            [publishDisconnected reason (n.saturatingAdd 1) poll.stamp] else []) ∧
      (ltpTurn instruments n poll).2 = n.saturatingAdd 1 := by
  unfold LtpPoll.failed at h
  unfold ltpTurn
  cases hfetch : fetchLtp instruments poll.reply with
  | ok items =>
    rw [hfetch] at h
    cases h
  | error e =>
    refine ⟨"ltp: " ++ e, ?_, rfl⟩
    have hone : n.saturatingAdd 1 = 1 → (n.saturatingAdd 1).toNat.isPowerOfTwo := by
      intro h
      rw [h]
      exact Nat.isPowerOfTwo_one
    simp only [or_iff_right_of_imp hone]
    rw [apply_ite connectionsOf]
    rfl

/-! ## Runs -/

/-- The connection messages of the poller. -/
def reports (polls : List LtpPoll) : List Json :=
  connectionsOf (runOutputs (ltpTurn instruments) 0 polls).flatten

theorem reports_concat (polls : List LtpPoll) (poll : LtpPoll) :
    reports instruments (polls ++ [poll]) = reports instruments polls ++
      connectionsOf (ltpTurn instruments (runState (ltpTurn instruments) 0 polls) poll).1 := by
  rw [reports, runOutputs_concat, List.flatten_concat, connectionsOf, List.filterMap_append]
  rfl

/-- A message of the shape that both consumers read. -/
def IsConnectionPayload (payload : Json) : Prop :=
  ∃ status reason attempt cockpit stamp,
    payload = connectionPayload status reason attempt cockpit stamp

theorem isConnectionPayload_of_mem_reports {polls : List LtpPoll} {payload : Json}
    (h : payload ∈ reports instruments polls) : IsConnectionPayload payload := by
  induction polls using List.reverseRecOn with
  | nil => cases h
  | append_singleton polls poll ih =>
    rw [reports_concat] at h
    rcases List.mem_append.mp h with hbefore | hturn
    · exact ih hbefore
    · cases hfailed : poll.failed instruments with
      | false =>
        rw [(ltpTurn_of_not_failed instruments _ hfailed).1] at hturn
        split_ifs at hturn
        · exact ⟨_, _, _, _, _, List.mem_singleton.mp hturn⟩
        · cases hturn
      | true =>
        obtain ⟨reason, hsent, _⟩ := ltpTurn_of_failed instruments _ hfailed
        rw [hsent] at hturn
        split_ifs at hturn
        · exact ⟨_, _, _, _, _, List.mem_singleton.mp hturn⟩
        · cases hturn

theorem connectionsOf_ltpOutputs (stamp : Stamp) (polls : List LtpPoll) :
    connectionsOf (ltpOutputs instruments (.ok ()) stamp polls)
      = publishConnected stamp :: reports instruments polls := rfl

/-- Every message of the bridge has that shape, after a failed probe too. -/
theorem isConnectionPayload_of_mem {probe : Except String Unit} {stamp : Stamp}
    {polls : List LtpPoll} {payload : Json}
    (h : payload ∈ connectionsOf (ltpOutputs instruments probe stamp polls)) :
    IsConnectionPayload payload := by
  cases probe with
  | error e => exact ⟨_, _, _, _, _, List.mem_singleton.mp h⟩
  | ok =>
    rw [connectionsOf_ltpOutputs] at h
    rcases List.mem_cons.mp h with hfirst | hlater
    · exact ⟨_, _, _, _, _, hfirst⟩
    · exact isConnectionPayload_of_mem_reports instruments hlater

theorem errorRow_concat_of_not_failed {polls : List LtpPoll} {poll : LtpPoll}
    (h : poll.failed instruments = false) : errorRow instruments (polls ++ [poll]) = 0 := by
  rw [errorRow, trailing_concat, h, if_neg Bool.false_ne_true, Nat.zero_min]

theorem errorRow_concat_of_failed {polls : List LtpPoll} {poll : LtpPoll}
    (h : poll.failed instruments = true) :
    errorRow instruments (polls ++ [poll])
      = min (trailing (LtpPoll.failed instruments) polls + 1) (2 ^ 32 - 1) := by
  rw [errorRow, trailing_concat, h, if_pos rfl]

/-- The counter holds the row of errors. -/
theorem toNat_runState_ltpTurn (polls : List LtpPoll) :
    (runState (ltpTurn instruments) 0 polls).toNat = errorRow instruments polls := by
  induction polls using List.reverseRecOn with
  | nil => rfl
  | append_singleton polls poll ih =>
    rw [runState_append, runState_cons, runState_nil]
    cases h : poll.failed instruments with
    | false =>
      rw [(ltpTurn_of_not_failed instruments _ h).2, errorRow_concat_of_not_failed instruments h]
      rfl
    | true =>
      obtain ⟨_, _, hnext⟩ := ltpTurn_of_failed instruments (runState (ltpTurn instruments) 0 polls) h
      have hone : (1 : UInt32).toNat = 1 := rfl
      rw [hnext, UInt32.toNat_saturatingAdd, ih, errorRow_concat_of_failed instruments h, errorRow,
        hone]
      omega

/-- A message that reports a row of errors, none of them included. -/
def ReportsRow (row : ℕ) (payload : Json) : Prop :=
  if row = 0 then ∃ stamp, payload = publishConnected stamp
  else ∃ reason attempt stamp, payload = publishDisconnected reason attempt stamp ∧
    attempt.toNat = lastDoubling row

/-- The last message reports the running row. -/
theorem getLast_reports (stamp : Stamp) (polls : List LtpPoll) :
    ∃ last, (publishConnected stamp :: reports instruments polls).getLast? = some last ∧
      ReportsRow (errorRow instruments polls) last := by
  induction polls using List.reverseRecOn with
  | nil => exact ⟨publishConnected stamp, rfl, stamp, rfl⟩
  | append_singleton polls poll ih =>
    obtain ⟨last, hlast, hrow⟩ := ih
    have hcount := toNat_runState_ltpTurn instruments polls
    rw [reports_concat, ← List.cons_append]
    cases h : poll.failed instruments with
    | false =>
      rw [(ltpTurn_of_not_failed instruments _ h).1, errorRow_concat_of_not_failed instruments h]
      split_ifs with hpos
      · exact ⟨publishConnected poll.stamp, List.getLast?_concat, poll.stamp, rfl⟩
      · have hzero : errorRow instruments polls = 0 := by
          rw [← hcount]
          have hnot := UInt32.not_lt.mp hpos
          exact Nat.le_zero.mp (UInt32.le_iff_toNat_le.mp hnot)
        rw [hzero] at hrow
        exact ⟨last, by rw [List.append_nil]; exact hlast, hrow⟩
    | true =>
      obtain ⟨reason, hsent, hnext⟩ :=
        ltpTurn_of_failed instruments (runState (ltpTurn instruments) 0 polls) h
      have hcount' := toNat_runState_ltpTurn instruments (polls ++ [poll])
      rw [runState_append, runState_cons, runState_nil, hnext] at hcount'
      have hne : errorRow instruments (polls ++ [poll]) ≠ 0 := by
        rw [errorRow_concat_of_failed instruments h]
        omega
      rw [hsent, hcount']
      split_ifs with hpow
      · refine ⟨_, List.getLast?_concat, ?_⟩
        rw [ReportsRow, if_neg hne]
        refine ⟨reason, _, poll.stamp, rfl, ?_⟩
        rw [hcount', lastDoubling_of_isPowerOfTwo hpow]
      · refine ⟨last, by rw [List.append_nil]; exact hlast, ?_⟩
        rw [ReportsRow, if_neg hne]
        rw [errorRow_concat_of_failed instruments h] at hpow ⊢
        -- A row that is not zero now and no power of two was not zero before.
        have hbefore : errorRow instruments polls ≠ 0 := by
          intro hzero
          have hone : min (trailing (LtpPoll.failed instruments) polls + 1) (2 ^ 32 - 1) = 1 := by
            rw [errorRow] at hzero
            omega
          rw [hone] at hpow
          exact hpow Nat.isPowerOfTwo_one
        rw [ReportsRow, if_neg hbefore, errorRow] at hrow
        rw [lastDoubling_min_succ hpow]
        exact hrow

/-- A disconnect, as the supervisor reads it. -/
def isDisconnect (payload : Json) : Bool :=
  (MdMessage.mk payload 0).reports "disconnected" source

@[simp] theorem isDisconnect_publishConnected (stamp : Stamp) :
    isDisconnect (publishConnected stamp) = false := by
  rw [isDisconnect, MdMessage.reports, publishConnected, fromJson_connectionPayload]
  rfl

@[simp] theorem isDisconnect_publishDisconnected (reason : String) (attempt : UInt32)
    (stamp : Stamp) : isDisconnect (publishDisconnected reason attempt stamp) = true := by
  rw [isDisconnect, MdMessage.reports, publishDisconnected, fromJson_connectionPayload]
  rfl

/-- A row of `n` errors is reported once for each binary digit of its length. -/
theorem countP_reports (polls : List LtpPoll) :
    (reports instruments polls).countP isDisconnect
      = ((streaks (LtpPoll.failed instruments) polls).map
          fun n => (min n (2 ^ 32 - 1)).size).sum := by
  induction polls using List.reverseRecOn with
  | nil => rfl
  | append_singleton polls poll ih =>
    rw [reports_concat, List.countP_append, ih]
    cases h : poll.failed instruments with
    | false =>
      rw [(ltpTurn_of_not_failed instruments _ h).1, sum_streaks_miss _ polls h]
      split_ifs <;> simp
    | true =>
      obtain ⟨reason, hsent, hnext⟩ :=
        ltpTurn_of_failed instruments (runState (ltpTurn instruments) 0 polls) h
      have hcount' := toNat_runState_ltpTurn instruments (polls ++ [poll])
      rw [runState_append, runState_cons, runState_nil, hnext,
        errorRow_concat_of_failed instruments h] at hcount'
      have hgrow := sum_streaks_hit (fun n => (min n (2 ^ 32 - 1)).size) polls h
      have hsize := size_min_succ not_isPowerOfTwo_cap (trailing (LtpPoll.failed instruments) polls)
      have hdisc : (connectionsOf (ltpTurn instruments (runState (ltpTurn instruments) 0 polls)
          poll).1).countP isDisconnect
            = if (min (trailing (LtpPoll.failed instruments) polls + 1) (2 ^ 32 - 1)).isPowerOfTwo
              then 1 else 0 := by
        rw [hsent, hcount']
        split_ifs <;> simp
      rw [hdisc]
      omega

end Polls

/-! ## The consumers -/

/-- A power of two above five is at least eight. -/
theorem five_lt_lastDoubling {n : ℕ} : 5 < lastDoubling n ↔ 2 ^ 3 ≤ lastDoubling n := by
  constructor
  · intro h
    rw [lastDoubling] at h ⊢
    apply Nat.pow_le_pow_right Nat.two_pos
    by_contra hsmall
    have hle : 2 ^ (n.size - 1) ≤ 2 ^ 2 := Nat.pow_le_pow_right Nat.two_pos (by omega)
    omega
  · intro h
    omega

/-- **What the supervisor and the cockpit were told last.** While polls answer the feed is
`reconnected` and `ok`. In a row of errors the supervisor last heard of the largest power of two up
to its length, and the cockpit shows `down` from the eighth error on. -/
theorem last_report (instruments : List String) (stamp : Stamp) (polls : List LtpPoll) :
    ∃ last, (connectionsOf (ltpOutputs instruments (.ok ()) stamp polls)).getLast? = some last ∧
      (errorRow instruments polls = 0 →
        MdConnectionEvent.fromJson last = some ⟨source, "reconnected", 0⟩ ∧
        cockpitStatus last = some "ok") ∧
      (errorRow instruments polls ≠ 0 →
        ∃ attempt, attempt.toNat = lastDoubling (errorRow instruments polls) ∧
          MdConnectionEvent.fromJson last = some ⟨source, "disconnected", attempt⟩ ∧
          cockpitStatus last
            = some (if 8 ≤ errorRow instruments polls then "down" else "degraded")) := by
  obtain ⟨last, hlast, hrow⟩ := getLast_reports instruments stamp polls
  refine ⟨last, hlast, fun hzero => ?_, fun hne => ?_⟩
  · rw [ReportsRow, if_pos hzero] at hrow
    obtain ⟨stamp', rfl⟩ := hrow
    exact ⟨fromJson_connectionPayload .., cockpitStatus_connectionPayload ..⟩
  · rw [ReportsRow, if_neg hne] at hrow
    obtain ⟨reason, attempt, stamp', rfl, hattempt⟩ := hrow
    refine ⟨attempt, hattempt, fromJson_connectionPayload .., ?_⟩
    rw [publishDisconnected, cockpitStatus_connectionPayload]
    -- More than five errors are reported once a power of two above five is reached.
    have hdown : 5 < attempt ↔ 8 ≤ errorRow instruments polls := by
      have hfive : (5 : UInt32).toNat = 5 := rfl
      rw [UInt32.lt_iff_toNat_lt, hattempt, hfive, five_lt_lastDoubling]
      exact two_pow_le_lastDoubling (k := 3) hne
    simp only [hdown]

/-- The supervisor reconnects the feed at each disconnect. -/
theorem length_reconnects (policy : PolicyConfig) {attempts : Attempts} {messages : List MdMessage}
    (hsource : ∀ message ∈ messages, ∃ status attempt,
      MdConnectionEvent.fromJson message.payload = some ⟨source, status, attempt⟩) :
    (runOutputs (mdStep policy) attempts messages).flatten.length
      = disconnects source messages := by
  induction messages generalizing attempts with
  | nil => rfl
  | cons message messages ih =>
    obtain ⟨status, attempt, hread⟩ := hsource message (List.mem_cons_self ..)
    have hcons : disconnects source (message :: messages) = disconnects source messages +
        if message.reports "disconnected" source then 1 else 0 := List.countP_cons
    rw [runOutputs_cons, List.flatten_cons, List.length_append,
      ih fun message hmem => hsource message (List.mem_cons_of_mem _ hmem), hcons, add_comm]
    congr 1
    rcases mdStep_cases policy attempts message with ⟨other, hdown, hstep⟩ | ⟨hnone, hstep⟩
    · obtain rfl : other = source := by
        simp only [MdMessage.reports, hread, Bool.and_eq_true, decide_eq_true_eq] at hdown
        exact hdown.2.symm
      rw [hstep, if_pos hdown]
      rfl
    · rw [hstep, hnone source]
      rfl

/-- **The supervisor counts a row of errors once for each binary digit of its length**, over all
rows: it reconnects that often, and the count is not taken back when the feed recovers. -/
theorem reconnects_of_feed (policy : PolicyConfig) (instruments : List String) (stamp : Stamp)
    (polls : List LtpPoll) (messages : List MdMessage)
    (hmessages : messages.map MdMessage.payload
      = connectionsOf (ltpOutputs instruments (.ok ()) stamp polls)) :
    (runOutputs (mdStep policy) ∅ messages).flatten.length
        = ((streaks (LtpPoll.failed instruments) polls).map
            fun n => (min n (2 ^ 32 - 1)).size).sum ∧
      (attemptCount (runState (mdStep policy) ∅ messages) source).toNat
        = min ((streaks (LtpPoll.failed instruments) polls).map
            fun n => (min n (2 ^ 32 - 1)).size).sum (2 ^ 32 - 1) := by
  have hcount : disconnects source messages = ((streaks (LtpPoll.failed instruments) polls).map
      fun n => (min n (2 ^ 32 - 1)).size).sum := by
    have hmap : disconnects source messages
        = (messages.map MdMessage.payload).countP isDisconnect := by
      rw [List.countP_map]
      rfl
    rw [hmap, hmessages, connectionsOf_ltpOutputs, List.countP_cons, countP_reports,
      isDisconnect_publishConnected]
    rfl
  have hsource : ∀ message ∈ messages, ∃ status attempt,
      MdConnectionEvent.fromJson message.payload = some ⟨source, status, attempt⟩ := by
    intro message hmem
    obtain ⟨_, _, _, _, _, hpayload⟩ := isConnectionPayload_of_mem instruments
      (hmessages ▸ List.mem_map_of_mem hmem : message.payload ∈ _)
    rw [hpayload]
    exact ⟨_, _, fromJson_connectionPayload ..⟩
  rw [length_reconnects policy hsource, attemptCount_mdStep, hcount]
  exact ⟨rfl, rfl⟩

/-- Three errors, an answer and one more error. -/
def downUpDown : List LtpPoll :=
  let stamp : Stamp := ⟨0, "1970-01-01T00:00:00+00:00"⟩
  let fails : LtpPoll := ⟨.error "ltp http: connection reset", stamp⟩
  [fails, fails, fails, ⟨.ok (.obj [("data", .obj [])]), stamp⟩, fails]

/-- The three errors are two disconnects, and the last one a third. -/
theorem reconnects_of_downUpDown :
    let messages := (connectionsOf (ltpOutputs [] (.ok ()) ⟨0, ""⟩ downUpDown)).map
      fun payload => MdMessage.mk payload 0
    (runOutputs (mdStep defaultPolicy) ∅ messages).flatten.length = 3 ∧
      (attemptCount (runState (mdStep defaultPolicy) ∅ messages) source).toNat = 3 :=
  reconnects_of_feed defaultPolicy [] ⟨0, ""⟩ downUpDown _ (by rw [List.map_map]; exact List.map_id _)

end Hedge.MarketData.Upstox
