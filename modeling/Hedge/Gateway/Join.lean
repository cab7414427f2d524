import Hedge.Gateway.Signals

/-!
# What becomes of a signal

Reference: `feed_signal`, `feed_rank`, `flush_expired`, `prune_expired` and `enforce_capacity` in
`hedge-ui-gateway/src/signals_join.rs`.

An entry of the join is followed from the call that creates it to the call that outputs it. As long
as the capacity is not exceeded, each call leaves an entry pending with what has been fed to it so
far, outputs it, or drops it when it has no signal (`Settled`). From this a signal comes out
once, with the ranks fed since its entry was created.
-/

namespace Hedge.Gateway

open Hedge Hedge.Common

namespace SignalsJoiner

/-! ## Observations on a run -/

/-- The payloads a call outputs for an id. -/
def outputsFor (id : String) (joiner : SignalsJoiner) (call : JoinCall) : List Json :=
  ((joiner.step call).1.filter fun out => out.1 = id).map (·.2)

/-- The id a call creates a pending entry for. -/
def inserted (joiner : SignalsJoiner) : JoinCall → List String
  | .feed id _ prunedAt _ => if ((joiner.pruneExpired prunedAt).entryOf id).isNone then [id] else []
  | .flushExpired _ | .shadow _ | .unshadow _ | .replace _ => []

/-- The rank a call feeds for an id, unless its source is shadowed. -/
def ranksFed (id : String) (joiner : SignalsJoiner) : JoinCall → List Json
  | .feed id' (.rank rank) _ _ =>
    if id' = id ∧ isShadowedSource joiner.shadow (rankSource rank) = false then [rank] else []
  | _ => []

/-- The source of the rank a call feeds for an id, when it is shadowed. -/
def shadowedFed (id : String) (joiner : SignalsJoiner) : JoinCall → List String
  | .feed id' (.rank rank) _ _ =>
    if id' = id ∧ isShadowedSource joiner.shadow (rankSource rank) = true then [rankSource rank]
    else []
  | _ => []

/-- The uncapped joiner after the call still fits the capacity. -/
def WithinCapacity (joiner : SignalsJoiner) : JoinCall → Prop
  | .feed id half prunedAt insertedAt =>
    (joiner.feedUncapped id half (half.isShadowed joiner.shadow) prunedAt
      insertedAt).2.inner.map.keys.length ≤ joiner.capacity
  | .flushExpired _ | .shadow _ | .unshadow _ | .replace _ => True

instance (joiner : SignalsJoiner) (call : JoinCall) : Decidable (joiner.WithinCapacity call) :=
  match call with
  | .feed _ _ _ _ => inferInstanceAs (Decidable (_ ≤ _))
  | .flushExpired _ | .shadow _ | .unshadow _ | .replace _ => inferInstanceAs (Decidable True)

end SignalsJoiner

namespace JoinCall

/-- The signal a call feeds for an id. -/
def signalsFed (id : String) : JoinCall → List Json
  | feed id' (.signal signal) _ _ => if id' = id then [signal] else []
  | _ => []

/-- The time of an entry the call creates. -/
def insertedAt : JoinCall → ℕ
  | feed _ _ _ insertedAt => insertedAt
  | flushExpired _ | shadow _ | unshadow _ | replace _ => 0

/-- The id that a payload names: only a flush tags it. -/
def tag (id : String) : JoinCall → String
  | flushExpired _ => id
  | feed _ _ _ _ | shadow _ | unshadow _ | replace _ => ""

/-- What the call adds to the entry of an id. -/
def addTo (id : String) (shadow : Finset String) (entry : PendingJoin) : JoinCall → PendingJoin
  | feed id' half _ _ => if id' = id then half.addTo (half.isShadowed shadow) entry else entry
  | flushExpired _ | JoinCall.shadow _ | unshadow _ | replace _ => entry

end JoinCall

namespace SignalsJoiner

/-! ## Steps of one entry -/

section Steps

variable {joiner : SignalsJoiner} {id : String} {call : JoinCall}

/-- The entry a call leaves to an id before it is output or dropped: the pending one or, when there
is none, a new one, with what the call adds. -/
def Live (joiner : SignalsJoiner) (call : JoinCall) (id : String) (entry : PendingJoin) : Prop :=
  (id ∉ joiner.inserted call ∧ ∃ pending, joiner.entryOf id = some pending ∧
    entry = call.addTo id joiner.shadow pending) ∨
  (id ∈ joiner.inserted call ∧
    (∀ pending, joiner.entryOf id = some pending → pending.signal = none) ∧
    entry = call.addTo id joiner.shadow (.new call.insertedAt))

theorem addTo_eq (joiner : SignalsJoiner) (id : String) (call : JoinCall) (entry : PendingJoin) :
    call.addTo id joiner.shadow entry = {
      signal := (call.signalsFed id).getLast?.or entry.signal
      ranks := entry.ranks ++ joiner.ranksFed id call
      shadowedSources := entry.shadowedSources ++ joiner.shadowedFed id call
      insertedAt := entry.insertedAt } := by
  cases call with
  | feed id' half prunedAt insertedAt =>
    by_cases hid : id' = id
    · cases half with
      | signal payload =>
        simp [JoinCall.addTo, JoinCall.signalsFed, ranksFed, shadowedFed, Half.addTo, hid]
      | rank payload =>
        cases hshadow : isShadowedSource joiner.shadow (rankSource payload) <;>
          simp [JoinCall.addTo, JoinCall.signalsFed, ranksFed, shadowedFed, Half.addTo,
            Half.isShadowed, hid, hshadow]
    · cases half <;> simp [JoinCall.addTo, JoinCall.signalsFed, ranksFed, shadowedFed, hid]
  | _ => simp [JoinCall.addTo, JoinCall.signalsFed, ranksFed, shadowedFed]

theorem feed_of_withinCapacity {half : Half} {prunedAt insertedAt : ℕ}
    (h : joiner.WithinCapacity (.feed id half prunedAt insertedAt)) :
    joiner.feed id half (half.isShadowed joiner.shadow) prunedAt insertedAt
      = joiner.feedUncapped id half (half.isShadowed joiner.shadow) prunedAt insertedAt := by
  rw [WithinCapacity] at h
  generalize half.isShadowed joiner.shadow = isShadowed at h ⊢
  have hcapacity : (joiner.feedUncapped id half isShadowed prunedAt insertedAt).2.capacity
      = joiner.capacity := by
    rcases joiner.feedUncapped_cases id half isShadowed prunedAt insertedAt with
      ⟨_, _, heq⟩ | ⟨_, heq⟩ <;> rw [heq]
  have hevict : (joiner.feedUncapped id half isShadowed prunedAt insertedAt).2.enforceCapacity
      = (joiner.feedUncapped id half isShadowed prunedAt insertedAt).2 := by
    rw [enforceCapacity, FifoMap.evict_of_le (hcapacity ▸ h)]
  exact Prod.ext rfl hevict

/-- A half that is fed makes the entry of its id live. -/
theorem live_feed (joiner : SignalsJoiner) (id : String) (half : Half) (prunedAt insertedAt : ℕ) :
    joiner.Live (.feed id half prunedAt insertedAt) id
      (joiner.fedEntry id half (half.isShadowed joiner.shadow) prunedAt insertedAt) := by
  cases hentry : (joiner.pruneExpired prunedAt).entryOf id with
  | none =>
    refine .inr ⟨by simp [inserted, hentry], fun pending hpending => ?_, ?_⟩
    · exact signal_eq_none_of_pruned hpending hentry
    · simp [fedEntry, entryFor, hentry, JoinCall.addTo, JoinCall.insertedAt]
  | some pending =>
    refine .inl ⟨by simp [inserted, hentry], pending, entryOf_of_entryOf_pruneExpired hentry, ?_⟩
    simp [fedEntry, entryFor, hentry, JoinCall.addTo]

/-- A call that touches no entry leaves a pending one live. -/
theorem live_of_pending {pending : PendingJoin} (hpending : joiner.entryOf id = some pending)
    (hinserted : id ∉ joiner.inserted call)
    (hsame : call.addTo id joiner.shadow pending = pending) : joiner.Live call id pending :=
  .inl ⟨hinserted, pending, hpending, hsame.symm⟩

/-- What a call does to the entry of an id: it outputs the live entry, leaves it pending, or drops
what is there, which it does only without a signal. A flush leaves no expired entry pending. -/
inductive Settled (joiner : SignalsJoiner) (call : JoinCall) (id : String) : Prop
  | output (entry : PendingJoin) (signal : Json) (hlive : joiner.Live call id entry)
      (hsignal : entry.signal = some signal) (hgone : (joiner.step call).2.entryOf id = none)
      (hout : joiner.outputsFor id call =
        [mergePayload (call.tag id) signal entry.ranks entry.shadowedSources])
  | pending (entry : PendingJoin) (hlive : joiner.Live call id entry)
      (hentry : (joiner.step call).2.entryOf id = some entry)
      (hout : joiner.outputsFor id call = [])
      (hfresh : ∀ now, call = .flushExpired now → joiner.isExpired now entry = false)
  | dropped (hfed : call.signalsFed id = [])
      (hnone : ∀ pending, joiner.entryOf id = some pending → pending.signal = none)
      (hgone : (joiner.step call).2.entryOf id = none) (hout : joiner.outputsFor id call = [])

/-- A feed joins the entry of its id or leaves it pending. -/
theorem settled_feed {half : Half} {prunedAt insertedAt : ℕ}
    (h : joiner.WithinCapacity (.feed id half prunedAt insertedAt)) :
    joiner.Settled (.feed id half prunedAt insertedAt) id := by
  have hlive := joiner.live_feed id half prunedAt insertedAt
  have hstep := joiner.step_feed id half prunedAt insertedAt
  rw [feed_of_withinCapacity h] at hstep
  rcases joiner.feedUncapped_cases id half (half.isShadowed joiner.shadow) prunedAt insertedAt with
    ⟨signal, hsignal, hjoined⟩ | ⟨allShadowed, hpending⟩
  · refine .output _ signal hlive hsignal ?_ ?_
    · rw [hstep, hjoined]
      exact FifoMap.lookup_remove_self _
    · rw [outputsFor, hstep, hjoined]
      simp [JoinOutcome.forwarded, JoinCall.tag]
  · refine .pending _ hlive ?_ ?_ nofun
    · rw [hstep, hpending]
      exact FifoMap.lookup_put_self _ _
    · rw [outputsFor, hstep, hpending]
      rfl

/-- A feed prunes the entry of another id or leaves it pending. -/
theorem settled_feed_of_ne {id' : String} {half : Half} {prunedAt insertedAt : ℕ} (hid : id ≠ id')
    (h : joiner.WithinCapacity (.feed id' half prunedAt insertedAt)) :
    joiner.Settled (.feed id' half prunedAt insertedAt) id := by
  have hstep := joiner.step_feed id' half prunedAt insertedAt
  rw [feed_of_withinCapacity h] at hstep
  have hafter : (joiner.step (.feed id' half prunedAt insertedAt)).2.entryOf id
      = (joiner.pruneExpired prunedAt).entryOf id := by
    rw [hstep]
    rcases joiner.feedUncapped_cases id' half (half.isShadowed joiner.shadow) prunedAt insertedAt with
      ⟨_, _, heq⟩ | ⟨_, heq⟩
    · rw [heq]
      exact (FifoMap.lookup_remove_ne hid).trans (FifoMap.lookup_put_ne hid _)
    · rw [heq]
      exact FifoMap.lookup_put_ne hid _
  have hout : joiner.outputsFor id (.feed id' half prunedAt insertedAt) = [] := by
    rw [outputsFor, hstep, List.map_eq_nil_iff, List.filter_eq_nil_iff]
    simp [hid.symm]
  cases hpruned : (joiner.pruneExpired prunedAt).entryOf id with
  | none =>
    refine .dropped ?_ (fun pending hpending => signal_eq_none_of_pruned hpending hpruned)
      (hafter.trans hpruned) hout
    cases half <;> simp [JoinCall.signalsFed, hid.symm]
  | some pending =>
    have hpending := entryOf_of_entryOf_pruneExpired hpruned
    refine .pending pending (live_of_pending hpending ?_ (if_neg hid.symm))
      (hafter.trans hpruned) hout nofun
    simp [inserted, hid]

/-- A flush outputs the expired entry of an id if it has a signal. -/
theorem settled_flushExpired (now : ℕ) : joiner.Settled (.flushExpired now) id := by
  have hout : joiner.outputsFor id (.flushExpired now)
      = (((joiner.entryOf id).filter (joiner.isExpired now)).bind (flushPayload id)).toList := by
    change ((joiner.flushed now).filter fun out => out.1 = id).map (·.2) = _
    rw [filter_flushed, Option.toList_map, List.map_map]
    exact List.map_id _
  have hafter : (joiner.step (.flushExpired now)).2.entryOf id
      = (joiner.entryOf id).filter (!joiner.isExpired now ·) := entryOf_flushExpired now
  cases hpending : joiner.entryOf id with
  | none =>
    rw [hpending] at hout hafter
    exact .dropped rfl (fun _ hsome => by rw [hpending] at hsome; cases hsome) hafter hout
  | some pending =>
    have hlive : joiner.Live (.flushExpired now) id pending :=
      live_of_pending hpending (by simp [inserted]) rfl
    rw [hpending] at hout hafter
    cases hexpired : joiner.isExpired now pending with
    | false =>
      simp only [Option.filter, hexpired, Bool.not_false, if_true] at hafter
      simp only [Option.filter, hexpired, Bool.false_eq_true, if_false] at hout
      refine .pending pending hlive hafter hout ?_
      rintro now' ⟨⟩
      exact hexpired
    | true =>
      simp only [Option.filter, hexpired, Bool.not_true, Bool.false_eq_true, if_false] at hafter
      simp only [Option.filter, hexpired, if_true, Option.bind_some, flushPayload] at hout
      cases hsignal : pending.signal with
      | none =>
        rw [hsignal] at hout
        refine .dropped rfl (fun pending' hsome => ?_) hafter hout
        cases hpending.symm.trans hsome
        exact hsignal
      | some signal =>
        rw [hsignal] at hout
        exact .output pending signal hlive hsignal hafter hout

/-- A call that changes the filter leaves every entry as it is. -/
theorem settled_of_filter (hentry : (joiner.step call).2.entryOf id = joiner.entryOf id)
    (hstep : (joiner.step call).1 = []) (hinserted : joiner.inserted call = [])
    (hfed : call.signalsFed id = []) (hflush : ∀ now, call ≠ .flushExpired now)
    (hsame : ∀ entry, call.addTo id joiner.shadow entry = entry) : joiner.Settled call id := by
  have hout : joiner.outputsFor id call = [] := by
    rw [outputsFor, hstep]
    rfl
  cases hpending : joiner.entryOf id with
  | none =>
    exact .dropped hfed (fun _ hsome => by rw [hpending] at hsome; cases hsome)
      (hentry.trans hpending) hout
  | some pending =>
    exact .pending pending (live_of_pending hpending (by simp [hinserted]) (hsame pending))
      (hentry.trans hpending) hout fun now heq => absurd heq (hflush now)

theorem settled_step (id : String) (h : joiner.WithinCapacity call) : joiner.Settled call id := by
  cases call with
  | feed id' half prunedAt insertedAt =>
    by_cases hid : id = id'
    · subst hid
      exact settled_feed h
    · exact settled_feed_of_ne hid h
  | flushExpired now => exact settled_flushExpired now
  | shadow component | unshadow component | replace components =>
    exact settled_of_filter rfl rfl rfl rfl nofun fun _ => rfl

/-- A call keeps the queue in the order of insertion. -/
theorem ordered_step {ids : List String} (h : FifoMap.Ordered ids joiner.inner) (call : JoinCall) :
    FifoMap.Ordered (ids ++ joiner.inserted call) (joiner.step call).2.inner := by
  cases call with
  | feed id half prunedAt insertedAt =>
    have hpruned : FifoMap.Ordered ids (joiner.pruneExpired prunedAt).inner := h.removeAll _
    have hfed : FifoMap.Ordered (ids ++ joiner.inserted (.feed id half prunedAt insertedAt))
        (joiner.fedInner id half (half.isShadowed joiner.shadow) prunedAt insertedAt) := by
      cases hentry : (joiner.pruneExpired prunedAt).entryOf id with
      | none =>
        have hnew : joiner.inserted (.feed id half prunedAt insertedAt) = [id] := by
          simp [inserted, hentry]
        rw [hnew]
        exact hpruned.put_of_notMem (AList.lookup_eq_none.mp hentry) _
      | some pending =>
        have hold : joiner.inserted (.feed id half prunedAt insertedAt) = [] := by
          simp [inserted, hentry]
        rw [hold, List.append_nil]
        exact hpruned.put_of_mem (AList.lookup_isSome.mp (by rw [← entryOf, hentry]; rfl)) _
    rw [step_feed]
    rcases joiner.feedUncapped_cases id half (half.isShadowed joiner.shadow) prunedAt insertedAt with
      ⟨_, _, heq⟩ | ⟨_, heq⟩
    · simp only [feed, heq]
      exact (hfed.remove id).evict _
    · simp only [feed, heq]
      exact hfed.evict _
  | flushExpired now =>
    rw [inserted, List.append_nil]
    exact h.removeAll _
  | shadow component | unshadow component | replace components =>
    rw [inserted, List.append_nil]
    exact h

theorem ttl_step (joiner : SignalsJoiner) (call : JoinCall) :
    (joiner.step call).2.ttl = joiner.ttl := by
  cases call with
  | feed id half prunedAt insertedAt =>
    rw [step_feed]
    rcases joiner.feedUncapped_cases id half (half.isShadowed joiner.shadow) prunedAt insertedAt with
      ⟨_, _, heq⟩ | ⟨_, heq⟩ <;>
      simp only [feed, heq, enforceCapacity]
  | flushExpired now => rfl
  | shadow component | unshadow component | replace components => rfl

end Steps

/-! ## Following an entry -/

/-- The call `created` is the last one to create a pending entry for the id. -/
structure CreatedBy (joiner : SignalsJoiner) (calls : List JoinCall) (id : String)
    (before : List JoinCall) (created : JoinCall) (since : List JoinCall) : Prop where
  split : calls = before ++ created :: since
  creates : id ∈ (joiner.run before).inserted created
  last : ∀ pre call post, since = pre ++ call :: post →
    id ∉ (joiner.run (before ++ created :: pre)).inserted call

/-- What has been fed for the id since then. -/
def gathered (joiner : SignalsJoiner) (id : String) (before : List JoinCall) (created : JoinCall)
    (since : List JoinCall) : PendingJoin where
  signal := ((created :: since).flatMap (·.signalsFed id)).getLast?
  ranks := runCollect step (ranksFed id) (joiner.run before) (created :: since)
  shadowedSources := runCollect step (shadowedFed id) (joiner.run before) (created :: since)
  insertedAt := created.insertedAt

section Follow

variable {joiner : SignalsJoiner} {id : String} {calls : List JoinCall}

theorem gathered_nil (before : List JoinCall) (created : JoinCall) :
    joiner.gathered id before created []
      = created.addTo id (joiner.run before).shadow (.new created.insertedAt) := by
  rw [addTo_eq]
  simp [gathered, PendingJoin.new]

theorem gathered_concat (before since : List JoinCall) (created call : JoinCall) :
    joiner.gathered id before created (since ++ [call])
      = call.addTo id (joiner.run (before ++ created :: since)).shadow
          (joiner.gathered id before created since) := by
  have hrun : joiner.run (before ++ created :: since)
      = runState step (joiner.run before) (created :: since) := runState_append ..
  rw [addTo_eq, hrun]
  simp only [gathered, ← List.cons_append, runCollect_concat, List.flatMap_append,
    List.flatMap_singleton, List.getLast?_append]

/-- The pending entry of the id is what has been fed since it was created. -/
def Followed (joiner : SignalsJoiner) (calls : List JoinCall) (id : String)
    (entry : PendingJoin) : Prop :=
  ∃ before created since, CreatedBy joiner calls id before created since ∧
    entry = joiner.gathered id before created since

/-- A live entry is what has been fed up to the call that leaves it. -/
theorem followed_of_live {call : JoinCall} {entry : PendingJoin}
    (h : ∀ pending, (joiner.run calls).entryOf id = some pending →
      joiner.Followed calls id pending)
    (hlive : (joiner.run calls).Live call id entry) :
    joiner.Followed (calls ++ [call]) id entry := by
  rcases hlive with ⟨hold, pending, hpending, rfl⟩ | ⟨hnew, -, rfl⟩
  · obtain ⟨before, created, since, hcreated, rfl⟩ := h pending hpending
    refine ⟨before, created, since ++ [call], ⟨?_, hcreated.creates, ?_⟩, ?_⟩
    · rw [hcreated.split]
      simp
    · rw [hcreated.split] at hold
      exact forall_split_concat_iff.mpr ⟨hcreated.last, hold⟩
    · rw [gathered_concat, hcreated.split]
  · exact ⟨calls, call, [], ⟨rfl, hnew, forall_split_nil⟩, (gathered_nil calls call).symm⟩

/-- A run on a new joiner within the capacity that feeds an id as a signal once at most. -/
structure Orderly (joiner : SignalsJoiner) (calls : List JoinCall) : Prop where
  new : ∀ id, joiner.entryOf id = none
  once : ∀ id, (calls.flatMap (·.signalsFed id)).length ≤ 1
  capacity : ∀ pre call post, calls = pre ++ call :: post → (joiner.run pre).WithinCapacity call

theorem Orderly.of_append {post : List JoinCall} (h : joiner.Orderly (calls ++ post)) :
    joiner.Orderly calls := by
  refine ⟨h.new, fun id => ?_, fun pre call rest hsplit => ?_⟩
  · have hall := h.once id
    rw [List.flatMap_append, List.length_append] at hall
    omega
  · exact h.capacity pre call (rest ++ post) (by rw [hsplit]; simp)

theorem Orderly.withinCapacity {call : JoinCall} (h : joiner.Orderly (calls ++ [call])) :
    (joiner.run calls).WithinCapacity call :=
  h.capacity calls call [] rfl

/-- Every pending entry of an orderly run is followed. -/
theorem Orderly.followed_of_pending (h : joiner.Orderly calls) {entry : PendingJoin}
    (hentry : (joiner.run calls).entryOf id = some entry) : joiner.Followed calls id entry := by
  induction calls using List.reverseRecOn generalizing entry with
  | nil =>
    rw [run, runState_nil, h.new] at hentry
    cases hentry
  | append_singleton calls call ih =>
    rw [run, runState_append, runState_cons, runState_nil] at hentry
    refine followed_of_live (fun pending => ih h.of_append) ?_
    cases settled_step id h.withinCapacity with
    | output _ _ _ _ hgone _ =>
      rw [hgone] at hentry
      cases hentry
    | pending _ hlive hpending _ _ =>
      rw [hpending] at hentry
      cases hentry
      exact hlive
    | dropped _ _ hgone _ =>
      rw [hgone] at hentry
      cases hentry

/-! ## Counting outputs -/

/-- The signal that waits in the entry of an id. -/
def pendingSignal (joiner : SignalsJoiner) (id : String) : Option Json :=
  (joiner.entryOf id).bind (·.signal)

/-- Every payload output for an id. -/
def outputs (joiner : SignalsJoiner) (id : String) (calls : List JoinCall) : List Json :=
  runCollect step (outputsFor id) joiner calls

theorem outputs_concat (joiner : SignalsJoiner) (id : String) (calls : List JoinCall)
    (call : JoinCall) :
    joiner.outputs id (calls ++ [call])
      = joiner.outputs id calls ++ (joiner.run calls).outputsFor id call :=
  runCollect_concat ..

/-- The signal of a live entry is the one just fed, or the one that waited. -/
theorem signal_of_live {call : JoinCall} {entry : PendingJoin} (hlive : joiner.Live call id entry) :
    entry.signal = (call.signalsFed id).getLast?.or (joiner.pendingSignal id) := by
  rcases hlive with ⟨-, pending, hpending, rfl⟩ | ⟨-, hnone, rfl⟩
  · rw [addTo_eq, pendingSignal, hpending, Option.bind_some]
  · rw [addTo_eq, pendingSignal]
    cases hentry : joiner.entryOf id with
    | none => rfl
    | some pending =>
      rw [Option.bind_some, hnone pending hentry]
      rfl

/-- A signal that has been fed has been output or waits. -/
theorem Orderly.length_outputs_add (h : joiner.Orderly calls) (id : String) :
    (joiner.outputs id calls).length + ((joiner.run calls).pendingSignal id).toList.length
      = (calls.flatMap (·.signalsFed id)).length := by
  induction calls using List.reverseRecOn with
  | nil => simp [outputs, pendingSignal, h.new]
  | append_singleton calls call ih =>
    have honce := h.once id
    rw [List.flatMap_append, List.flatMap_singleton, List.length_append] at honce ⊢
    have hcount := ih h.of_append
    -- A signal is only fed while none has been.
    have hsignal : ∀ entry, (joiner.run calls).Live call id entry → entry.signal.toList.length
        = ((joiner.run calls).pendingSignal id).toList.length + (call.signalsFed id).length := by
      intro entry hlive
      rw [signal_of_live hlive]
      cases hfed : call.signalsFed id with
      | nil => rfl
      | cons signal fed =>
        rw [hfed, List.length_cons] at honce
        have hfirst : fed = [] := List.length_eq_zero_iff.mp (by omega)
        subst hfirst
        change 1 = _ + 1
        omega
    have hafter : joiner.run (calls ++ [call]) = ((joiner.run calls).step call).2 := by
      rw [run, runState_append, runState_cons, runState_nil]
    rw [outputs_concat, List.length_append, pendingSignal, hafter]
    cases settled_step id h.withinCapacity with
    | output entry signal hlive hsome hgone hout =>
      have hlength := hsignal entry hlive
      rw [hsome, Option.toList_some, List.length_singleton] at hlength
      rw [hout, hgone, Option.bind_none, List.length_singleton, Option.toList_none,
        List.length_nil]
      omega
    | pending entry hlive hpending hout _ =>
      have hlength := hsignal entry hlive
      rw [hout, hpending, Option.bind_some, List.length_nil]
      omega
    | dropped hfed hnone hgone hout =>
      have hwaiting : ((joiner.run calls).pendingSignal id).toList.length = 0 := by
        rw [pendingSignal]
        cases hentry : (joiner.run calls).entryOf id with
        | none => rfl
        | some pending =>
          rw [Option.bind_some, hnone pending hentry]
          rfl
      rw [hout, hgone, hfed, Option.bind_none, Option.toList_none, List.length_nil]
      omega

theorem Orderly.length_outputs_le (h : joiner.Orderly calls) (id : String) :
    (joiner.outputs id calls).length ≤ 1 := by
  have hcount := h.length_outputs_add id
  have honce := h.once id
  omega

/-- The signal of the id has been output once, or waits in an entry created at `t`. -/
def OutputOrWaits (joiner : SignalsJoiner) (calls : List JoinCall) (id : String) (t : ℕ) : Prop :=
  (joiner.outputs id calls).length = 1 ∨
    ∃ entry, (joiner.run calls).entryOf id = some entry ∧ entry.signal ≠ none ∧
      entry.insertedAt = t

theorem ttl_run (calls : List JoinCall) : (joiner.run calls).ttl = joiner.ttl :=
  runState_invariant_all step (fun s => s.ttl = joiner.ttl)
    (fun s call hs => (ttl_step s call).trans hs) rfl calls

theorem OutputOrWaits.step {t : ℕ} {call : JoinCall} (h : joiner.OutputOrWaits calls id t)
    (horderly : joiner.Orderly (calls ++ [call])) :
    joiner.OutputOrWaits (calls ++ [call]) id t ∧
    ∀ now, call = .flushExpired now → joiner.ttl < now - t →
      (joiner.outputs id (calls ++ [call])).length = 1 := by
  have honce := horderly.length_outputs_le id
  have hlength : (joiner.outputs id (calls ++ [call])).length
      = (joiner.outputs id calls).length + ((joiner.run calls).outputsFor id call).length := by
    rw [outputs_concat, List.length_append]
  rcases h with hout | ⟨pending, hpending, hsignal, ht⟩
  · have hdone : (joiner.outputs id (calls ++ [call])).length = 1 := by omega
    exact ⟨.inl hdone, fun _ _ _ => hdone⟩
  cases settled_step id horderly.withinCapacity with
  | output _ _ _ _ _ hout =>
    rw [hout, List.length_singleton] at hlength
    have hdone : (joiner.outputs id (calls ++ [call])).length = 1 := by omega
    exact ⟨.inl hdone, fun _ _ _ => hdone⟩
  | dropped _ hnone _ _ => exact absurd (hnone pending hpending) hsignal
  | pending entry hlive hentry _ hfresh =>
    rcases hlive with ⟨-, pending', hpending', rfl⟩ | ⟨-, hnone, -⟩
    · obtain rfl := Option.some.inj (hpending.symm.trans hpending')
      have hcreated : (call.addTo id (joiner.run calls).shadow pending).insertedAt = t := by
        rw [addTo_eq]
        exact ht
      refine ⟨.inr ⟨_, ?_, ?_, hcreated⟩, ?_⟩
      · rw [run, runState_append, runState_cons, runState_nil]
        exact hentry
      · rw [addTo_eq]
        exact fun hor => hsignal (Option.or_eq_none_iff.mp hor).2
      · intro now hcall hexpired
        have hyoung := hfresh now hcall
        rw [isExpired, ttl_run, hcreated] at hyoung
        exact absurd hexpired (of_decide_eq_false hyoung)
    · exact absurd (hnone pending hpending) hsignal

/-- A flush that finds the entry of a signal expired has it output. -/
theorem OutputOrWaits.flush {t now : ℕ} {mid : List JoinCall} (h : joiner.OutputOrWaits calls id t)
    (horderly : joiner.Orderly (calls ++ mid ++ [.flushExpired now]))
    (hexpired : joiner.ttl < now - t) :
    (joiner.outputs id (calls ++ mid ++ [.flushExpired now])).length = 1 := by
  have hwaits : joiner.OutputOrWaits (calls ++ mid) id t := by
    have hmid := horderly.of_append
    clear horderly
    induction mid using List.reverseRecOn with
    | nil => rwa [List.append_nil]
    | append_singleton mid call ih =>
      rw [← List.append_assoc] at hmid ⊢
      exact ((ih hmid.of_append).step hmid).1
  exact (hwaits.step horderly).2 now rfl hexpired

/-- The entry a signal is fed into, and when it was created. -/
theorem Orderly.exists_createdBy {pre : List JoinCall} {signal : Json} {prunedAt insertedAt : ℕ}
    (h : joiner.Orderly (pre ++ [.feed id (.signal signal) prunedAt insertedAt])) :
    ∃ before created since,
      CreatedBy joiner (pre ++ [.feed id (.signal signal) prunedAt insertedAt]) id before created
        since ∧
      joiner.OutputOrWaits (pre ++ [.feed id (.signal signal) prunedAt insertedAt]) id
        created.insertedAt := by
  have hfollow : ∀ pending, (joiner.run pre).entryOf id = some pending →
      joiner.Followed pre id pending := fun _ => h.of_append.followed_of_pending
  cases settled_step id h.withinCapacity with
  | output entry _ hlive _ _ hout =>
    obtain ⟨before, created, since, hcreated, -⟩ := followed_of_live hfollow hlive
    refine ⟨before, created, since, hcreated, .inl ?_⟩
    have hle := h.length_outputs_le id
    rw [outputs_concat, List.length_append, hout, List.length_singleton] at hle ⊢
    omega
  | pending entry hlive hentry _ _ =>
    obtain ⟨before, created, since, hcreated, hgathered⟩ := followed_of_live hfollow hlive
    refine ⟨before, created, since, hcreated, .inr ⟨entry, ?_, ?_, ?_⟩⟩
    · rw [run, runState_append, runState_cons, runState_nil]
      exact hentry
    · rw [signal_of_live hlive]
      simp [JoinCall.signalsFed]
    · rw [hgathered]
      rfl
  | dropped hnone _ _ _ => simp [JoinCall.signalsFed] at hnone

/-- What an orderly run outputs for an id has been gathered since the entry was created. -/
theorem Orderly.outputs_eq {call : JoinCall} {payload : Json} (h : joiner.Orderly (calls ++ [call]))
    (hpayload : payload ∈ (joiner.run calls).outputsFor id call) :
    ∃ before created since signal,
      CreatedBy joiner (calls ++ [call]) id before created since ∧
      (created :: since).flatMap (·.signalsFed id) = [signal] ∧
      payload = mergePayload (call.tag id) signal
        (runCollect step (ranksFed id) (joiner.run before) (created :: since))
        (runCollect step (shadowedFed id) (joiner.run before) (created :: since)) := by
  cases settled_step id h.withinCapacity with
  | output entry signal hlive hsignal _ hout =>
    obtain ⟨before, created, since, hcreated, rfl⟩ :=
      followed_of_live (fun _ => h.of_append.followed_of_pending) hlive
    rw [hout, List.mem_singleton] at hpayload
    refine ⟨before, created, since, signal, hcreated, ?_, hpayload⟩
    have honce := h.once id
    rw [hcreated.split, List.flatMap_append, List.length_append] at honce
    obtain ⟨signals, hsignals⟩ := List.getLast?_eq_some_iff.mp hsignal
    rw [hsignals, List.length_append, List.length_singleton] at honce
    rw [hsignals, List.length_eq_zero_iff.mp (by omega : signals.length = 0), List.nil_append]
  | pending _ _ _ hout _ =>
    rw [hout] at hpayload
    cases hpayload
  | dropped _ _ _ hout =>
    rw [hout] at hpayload
    cases hpayload

theorem ordered_run (hempty : joiner.inner = .empty) (calls : List JoinCall) :
    FifoMap.Ordered (runCollect step inserted joiner calls) (joiner.run calls).inner := by
  induction calls using List.reverseRecOn with
  | nil =>
    rw [run, runState_nil, hempty]
    exact FifoMap.ordered_empty
  | append_singleton calls call ih =>
    rw [runCollect_concat, run, runState_append, runState_cons, runState_nil]
    exact ordered_step ih call

end Follow

/-! ## The join loses and duplicates nothing -/

/-- What a run of the join promises. -/
structure JoinHolds (joiner : SignalsJoiner) (calls : List JoinCall) : Prop where
  /-- An id has at most one output. -/
  once : ∀ id, (joiner.outputs id calls).length ≤ 1
  /-- A signal is output by the first flush that finds its entry expired, if not before. -/
  flushed : ∀ pre id signal prunedAt insertedAt post,
    calls = pre ++ .feed id (.signal signal) prunedAt insertedAt :: post →
    ∃ before created since,
      CreatedBy joiner (pre ++ [.feed id (.signal signal) prunedAt insertedAt]) id before created
        since ∧
      ∀ mid now rest, post = mid ++ .flushExpired now :: rest →
        joiner.ttl < now - created.insertedAt →
        (joiner.outputs id (pre ++ .feed id (.signal signal) prunedAt insertedAt :: mid
          ++ [.flushExpired now])).length = 1
  /-- An output is the signal with what was fed for its id since its entry was created. -/
  contents : ∀ pre call post id payload, calls = pre ++ call :: post →
    payload ∈ (joiner.run pre).outputsFor id call →
    ∃ before created since signal,
      CreatedBy joiner (pre ++ [call]) id before created since ∧
      (created :: since).flatMap (·.signalsFed id) = [signal] ∧
      payload = mergePayload (call.tag id) signal
        (runCollect step (ranksFed id) (joiner.run before) (created :: since))
        (runCollect step (shadowedFed id) (joiner.run before) (created :: since))
  /-- The queue holds the pending ids, each once, in the order of their insertion. -/
  order : ∀ pre post, calls = pre ++ post →
    (joiner.run pre).inner.order.Nodup ∧
    (∀ id, id ∈ (joiner.run pre).inner.order ↔ id ∈ (joiner.run pre).inner.map) ∧
    (joiner.run pre).inner.order
      = (runCollect step inserted joiner pre).dedup.filter (· ∈ (joiner.run pre).inner.map)

theorem entryOf_new (ttl capacity : ℕ) (shadow : Finset String) (id : String) :
    (new ttl capacity shadow).entryOf id = none := rfl

/-- Each id fed as a signal at most once, and no more ids pending than the capacity: every signal
comes out once, with the ranks fed for it. -/
theorem join_holds (ttl capacity : ℕ) (shadow : Finset String) (calls : List JoinCall)
    (honce : ∀ id, (calls.flatMap (·.signalsFed id)).length ≤ 1)
    (hcapacity : ∀ pre call post, calls = pre ++ call :: post →
      ((new ttl capacity shadow).run pre).WithinCapacity call) :
    JoinHolds (new ttl capacity shadow) calls := by
  have horderly : (new ttl capacity shadow).Orderly calls :=
    ⟨entryOf_new ttl capacity shadow, honce, hcapacity⟩
  refine ⟨horderly.length_outputs_le, ?_, ?_, ?_⟩
  · intro pre id signal prunedAt insertedAt post hsplit
    rw [hsplit, ← List.singleton_append, ← List.append_assoc] at horderly
    obtain ⟨before, created, since, hcreated, hwaits⟩ := horderly.of_append.exists_createdBy
    refine ⟨before, created, since, hcreated, fun mid now rest hpost hexpired => ?_⟩
    have hmid : (new ttl capacity shadow).Orderly
        (pre ++ [.feed id (.signal signal) prunedAt insertedAt] ++ mid ++ [.flushExpired now]
          ++ rest) := by
      rwa [List.append_assoc _ _ rest, List.singleton_append, List.append_assoc _ mid, ← hpost]
    have hflushed := hwaits.flush hmid.of_append hexpired
    rwa [List.append_assoc pre, List.singleton_append] at hflushed
  · intro pre call post id payload hsplit hpayload
    rw [hsplit, ← List.singleton_append, ← List.append_assoc] at horderly
    exact horderly.of_append.outputs_eq hpayload
  · intro pre post _
    have hordered : FifoMap.Ordered _ ((new ttl capacity shadow).run pre).inner :=
      ordered_run rfl pre
    exact ⟨hordered.nodup, fun _ => hordered.mem_order_iff, hordered.order_eq⟩

/-- A shadowed rank, a signal and a flush after the time to live. -/
def shadowedThenFlushed : List JoinCall :=
  [.feed "01HJ" (.rank (.obj [("source", .str "news")])) 0 0,
    .feed "01HJ" (.signal (.obj [("strategy", .str "obr")])) 5 5, .flushExpired 11]

theorem join_holds_shadowedThenFlushed :
    JoinHolds (new 10 1 {"news"}) shadowedThenFlushed := by
  refine join_holds 10 1 {"news"} shadowedThenFlushed (fun id => ?_) ?_
  · simp only [shadowedThenFlushed, List.flatMap_cons, List.flatMap_nil, JoinCall.signalsFed]
    split_ifs <;> simp
  · exact forall_split_of_all (by decide +kernel)

end SignalsJoiner

end Hedge.Gateway
