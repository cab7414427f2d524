import Hedge.Gateway.Signals

/-!
# Shadowed components and the ranking

Reference: `AiShadowFilter`, `feed_rank`, `flush_expired` and `decide` in
`hedge-ui-gateway/src/signals_join.rs`.

`feed_rank` asks the filter, which has a lock of its own, and takes the lock of the joiner after
that; every other call takes one lock once. The filter is not asked again, neither under the lock nor
when the rank is output. A component that is shadowed in between still shows up in the ranking. It
does not in a run that shadows no component with a rank that the filter has let through and that has
not been output, if also no rank of the empty component arrives while that one is shadowed, which
the filter is not asked about.
-/

namespace Hedge.Gateway

open Hedge Hedge.Common

/-- The component a rank names. -/
def namedSource (rank : Json) : Option String := (rank.get "source").bind Json.asStr

/-- The ranks of a payload. -/
def payloadRanks (payload : Json) : List Json :=
  match payload.get "ranks" with
  | some (.arr ranks) => ranks
  | _ => []

theorem payloadRanks_mergePayload (id : String) (signal : Json) (ranks : List Json)
    (shadowedSources : List String) :
    payloadRanks (mergePayload id signal ranks shadowedSources) = ranks := by
  simp [payloadRanks, mergePayload]

/-! ## Calls that overlap -/

/-- A call of `feed_rank` that has asked the filter and has yet to take the lock of the joiner. -/
structure AskedRank where
  id : String
  rank : Json
  isShadowed : Bool

/-- The joiner and the calls that have asked the filter. -/
structure SharedJoiner where
  joiner : SignalsJoiner
  asked : List AskedRank

/-- What one of the callers does next. -/
inductive JoinStep where
  | feedSignal (id : String) (signal : Json) (prunedAt insertedAt : ℕ)
  /-- A call of `feed_rank` asks the filter. -/
  | askRank (id : String) (rank : Json)
  /-- One of the calls that have asked goes on under the lock. -/
  | feedRank (index : ℕ) (prunedAt insertedAt : ℕ)
  | flushExpired (now : ℕ)
  | shadow (component : String)
  | unshadow (component : String)
  | replace (components : List String)

namespace SharedJoiner

/-- A new joiner that no call has reached. -/
def new (ttl capacity : ℕ) (shadow : Finset String) : SharedJoiner :=
  ⟨.new ttl capacity shadow, []⟩

/-- One step: the payloads it outputs, each with its id, and the state after it. -/
def step (s : SharedJoiner) : JoinStep → List (String × Json) × SharedJoiner
  | .feedSignal id signal prunedAt insertedAt =>
    let (outcome, joiner) := s.joiner.feedSignal id signal prunedAt insertedAt
    (outcome.forwarded.map (id, ·), { s with joiner })
  | .askRank id rank =>
    let isShadowed := isShadowedSource s.joiner.shadow (rankSource rank)
    ([], { s with asked := s.asked ++ [⟨id, rank, isShadowed⟩] })
  | .feedRank index prunedAt insertedAt => match s.asked[index]? with
    | none => ([], s)
    | some call =>
      let (outcome, joiner) :=
        s.joiner.feedRank call.id call.rank call.isShadowed prunedAt insertedAt
      (outcome.forwarded.map (call.id, ·), ⟨joiner, s.asked.eraseIdx index⟩)
  | .flushExpired now =>
    (s.joiner.flushed now, { s with joiner := (s.joiner.flushExpired now).2 })
  | .shadow component =>
    ([], { s with joiner := { s.joiner with shadow := insert component s.joiner.shadow } })
  | .unshadow component =>
    ([], { s with joiner := { s.joiner with shadow := s.joiner.shadow.erase component } })
  | .replace components =>
    ([], { s with joiner := { s.joiner with shadow := components.toFinset } })

/-- The state after some steps. -/
abbrev run (s : SharedJoiner) (steps : List JoinStep) : SharedJoiner := runState step s steps

/-- A call of `feed_rank` that nothing comes into does what the joiner's own step does. -/
theorem step_feedRank_alone (s : SharedJoiner) (id : String) (rank : Json)
    (prunedAt insertedAt : ℕ) :
    (s.step (.askRank id rank)).2.step (.feedRank s.asked.length prunedAt insertedAt)
      = ((s.joiner.step (.feed id (.rank rank) prunedAt insertedAt)).1,
        { s with joiner := (s.joiner.step (.feed id (.rank rank) prunedAt insertedAt)).2 }) := by
  have herase : (s.asked ++ [(⟨id, rank,
      isShadowedSource s.joiner.shadow (rankSource rank)⟩ : AskedRank)]).eraseIdx s.asked.length
      = s.asked := by
    rw [List.eraseIdx_append_of_length_le (Nat.le_refl _), Nat.sub_self, List.eraseIdx_cons_zero,
      List.append_nil]
  simp only [step, List.getElem?_concat_length, herase, SignalsJoiner.step]

end SharedJoiner

/-! ## Ranks that the filter has let through -/

/-- The ranks that wait in some entry. -/
def SignalsJoiner.buffered (joiner : SignalsJoiner) : List Json :=
  joiner.inner.map.entries.flatMap (·.2.ranks)

namespace SharedJoiner

/-- The ranks that wait in some entry or are on the way there. -/
def cleared (s : SharedJoiner) : List Json :=
  s.joiner.buffered ++ (s.asked.filter (!·.isShadowed)).map (·.rank)

/-- No rank that the filter has let through is of a shadowed component. -/
def Unshadowed (s : SharedJoiner) : Prop :=
  ∀ rank ∈ s.cleared, ∀ source, namedSource rank = some source → source ∉ s.joiner.shadow

/-- The step shadows no component with a rank that the filter has let through, and brings no rank
of the empty component while that one is shadowed. -/
def KeepsUnshadowed (s : SharedJoiner) : JoinStep → Prop
  | .shadow component => ∀ rank ∈ s.cleared, namedSource rank ≠ some component
  | .replace components =>
    ∀ rank ∈ s.cleared, ∀ component ∈ components, namedSource rank ≠ some component
  | .askRank _ rank => namedSource rank = some "" → "" ∉ s.joiner.shadow
  | .feedSignal _ _ _ _ | .feedRank _ _ _ | .flushExpired _ | .unshadow _ => True

instance (s : SharedJoiner) (label : JoinStep) : Decidable (s.KeepsUnshadowed label) :=
  match label with
  | .shadow component =>
    inferInstanceAs (Decidable (∀ rank ∈ s.cleared, namedSource rank ≠ some component))
  | .replace components => inferInstanceAs (Decidable (∀ rank ∈ s.cleared,
      ∀ component ∈ components, namedSource rank ≠ some component))
  | .askRank _ rank =>
    inferInstanceAs (Decidable (namedSource rank = some "" → "" ∉ s.joiner.shadow))
  | .feedSignal _ _ _ _ | .feedRank _ _ _ | .flushExpired _ | .unshadow _ =>
    inferInstanceAs (Decidable True)

end SharedJoiner

/-! ## What a call outputs and leaves in the buffer -/

namespace SignalsJoiner

theorem mem_buffered {joiner : SignalsJoiner} {rank : Json} :
    rank ∈ joiner.buffered ↔ ∃ id entry, joiner.entryOf id = some entry ∧ rank ∈ entry.ranks := by
  simp only [buffered, List.mem_flatMap]
  constructor
  · rintro ⟨⟨id, entry⟩, hmem, hrank⟩
    exact ⟨id, entry, AList.mem_lookup_iff.mpr hmem, hrank⟩
  · rintro ⟨id, entry, hentry, hrank⟩
    exact ⟨⟨id, entry⟩, AList.mem_lookup_iff.mp hentry, hrank⟩

section Feed

variable {joiner : SignalsJoiner} {id : String} {half : Half} {isShadowed : Bool}
  {prunedAt insertedAt : ℕ}

/-- The ranks of an entry after a feed were in the buffer, or are the rank just fed. -/
theorem mem_ranks_fedEntry {rank : Json}
    (h : rank ∈ (joiner.fedEntry id half isShadowed prunedAt insertedAt).ranks) :
    rank ∈ joiner.buffered ∨ half = .rank rank ∧ isShadowed = false := by
  have hbase : ∀ rank ∈ ((joiner.pruneExpired prunedAt).entryFor id insertedAt).ranks,
      rank ∈ joiner.buffered := by
    intro rank hrank
    rw [entryFor] at hrank
    cases hentry : (joiner.pruneExpired prunedAt).entryOf id with
    | none =>
      rw [hentry] at hrank
      cases hrank
    | some entry =>
      rw [hentry] at hrank
      exact mem_buffered.mpr ⟨id, entry, entryOf_of_entryOf_pruneExpired hentry, hrank⟩
  cases half with
  | signal payload => exact .inl (hbase rank h)
  | rank payload =>
    cases isShadowed with
    | true => exact .inl (hbase rank h)
    | false =>
      rcases List.mem_append.mp h with h | h
      · exact .inl (hbase rank h)
      · cases List.mem_singleton.mp h
        exact .inr ⟨rfl, rfl⟩

/-- A feed leaves the ranks of the entry it feeds and of others that were there. -/
theorem mem_buffered_feed {rank : Json}
    (h : rank ∈ (joiner.feed id half isShadowed prunedAt insertedAt).2.buffered) :
    rank ∈ joiner.buffered ∨
      rank ∈ (joiner.fedEntry id half isShadowed prunedAt insertedAt).ranks := by
  obtain ⟨id', entry, hentry, hrank⟩ := mem_buffered.mp h
  have huncapped : (joiner.feedUncapped id half isShadowed prunedAt insertedAt).2.entryOf id'
      = some entry := FifoMap.lookup_of_lookup_evict hentry
  have hput : (joiner.fedInner id half isShadowed prunedAt insertedAt).map.lookup id'
      = some entry := by
    rcases joiner.feedUncapped_cases id half isShadowed prunedAt insertedAt with
      ⟨_, _, heq⟩ | ⟨_, heq⟩
    · rw [heq] at huncapped
      by_cases hid : id' = id
      · subst hid
        rw [entryOf, FifoMap.lookup_remove_self] at huncapped
        cases huncapped
      · exact (FifoMap.lookup_remove_ne hid).symm.trans huncapped
    · rw [heq] at huncapped
      exact huncapped
  by_cases hid : id' = id
  · subst hid
    have hself := FifoMap.lookup_put_self (m := (joiner.pruneExpired prunedAt).inner) id'
      (joiner.fedEntry id' half isShadowed prunedAt insertedAt)
    cases Option.some.inj (hself.symm.trans hput)
    exact .inr hrank
  · rw [fedInner, FifoMap.lookup_put_ne hid] at hput
    exact .inl (mem_buffered.mpr ⟨id', entry, entryOf_of_entryOf_pruneExpired hput, hrank⟩)

/-- A feed outputs the ranks of the entry it feeds. -/
theorem payloadRanks_of_mem_forwarded {payload : Json}
    (h : payload ∈ (joiner.feed id half isShadowed prunedAt insertedAt).1.forwarded) :
    payloadRanks payload
      = (joiner.fedEntry id half isShadowed prunedAt insertedAt).ranks := by
  change payload ∈ (joiner.feedUncapped id half isShadowed prunedAt insertedAt).1.forwarded at h
  rcases joiner.feedUncapped_cases id half isShadowed prunedAt insertedAt with
    ⟨_, _, heq⟩ | ⟨_, heq⟩
  · rw [heq] at h
    rw [List.mem_singleton.mp h, payloadRanks_mergePayload]
  · rw [heq] at h
    cases h

/-- What holds of the ranks in the buffer, and of the one that is fed if it is let through, holds of
the ranks in the buffer after the feed and of those it outputs. -/
theorem forall_feed (id : String) (prunedAt insertedAt : ℕ) {P : Json → Prop}
    (hbuffered : ∀ rank ∈ joiner.buffered, P rank)
    (hfed : ∀ rank, half = .rank rank → isShadowed = false → P rank) :
    (∀ rank ∈ (joiner.feed id half isShadowed prunedAt insertedAt).2.buffered, P rank) ∧
    ∀ payload ∈ (joiner.feed id half isShadowed prunedAt insertedAt).1.forwarded,
      ∀ rank ∈ payloadRanks payload, P rank := by
  have hentry : ∀ rank ∈ (joiner.fedEntry id half isShadowed prunedAt insertedAt).ranks,
      P rank := by
    intro rank hrank
    rcases mem_ranks_fedEntry hrank with hold | ⟨hhalf, hclear⟩
    · exact hbuffered rank hold
    · exact hfed rank hhalf hclear
  constructor
  · intro rank hrank
    rcases mem_buffered_feed hrank with hold | hnew
    · exact hbuffered rank hold
    · exact hentry rank hnew
  · intro payload hpayload rank hrank
    rw [payloadRanks_of_mem_forwarded hpayload] at hrank
    exact hentry rank hrank

theorem shadow_feed :
    (joiner.feed id half isShadowed prunedAt insertedAt).2.shadow = joiner.shadow := by
  rcases joiner.feedUncapped_cases id half isShadowed prunedAt insertedAt with
    ⟨_, _, heq⟩ | ⟨_, heq⟩ <;> simp only [feed, heq, enforceCapacity]

end Feed

section Flush

variable {joiner : SignalsJoiner} {now : ℕ} {rank : Json}

/-- A flush outputs ranks that were in the buffer. -/
theorem mem_buffered_of_mem_flushed {out : String × Json} (hout : out ∈ joiner.flushed now)
    (hrank : rank ∈ payloadRanks out.2) : rank ∈ joiner.buffered := by
  obtain ⟨entry, hentry, hmap⟩ := List.mem_filterMap.mp hout
  obtain ⟨payload, hpayload, rfl⟩ := Option.map_eq_some_iff.mp hmap
  obtain ⟨signal, -, rfl⟩ := Option.map_eq_some_iff.mp hpayload
  rw [payloadRanks_mergePayload] at hrank
  exact List.mem_flatMap.mpr ⟨entry, (List.mem_filter.mp hentry).1, hrank⟩

/-- A flush leaves ranks that were in the buffer. -/
theorem mem_buffered_of_mem_flushExpired (h : rank ∈ (joiner.flushExpired now).2.buffered) :
    rank ∈ joiner.buffered := by
  obtain ⟨id, entry, hentry, hrank⟩ := mem_buffered.mp h
  rw [entryOf_flushExpired] at hentry
  exact mem_buffered.mpr ⟨id, entry, (Option.filter_eq_some_iff.mp hentry).1, hrank⟩

end Flush

end SignalsJoiner

namespace SharedJoiner

/-! ## Steps -/

section Steps

variable {s : SharedJoiner}

theorem mem_cleared {rank : Json} : rank ∈ s.cleared ↔
    rank ∈ s.joiner.buffered ∨ ∃ call ∈ s.asked, call.isShadowed = false ∧ call.rank = rank := by
  simp [cleared, and_assoc]

theorem Unshadowed.buffered (h : s.Unshadowed) : ∀ rank ∈ s.joiner.buffered,
    ∀ source, namedSource rank = some source → source ∉ s.joiner.shadow :=
  fun rank hrank => h rank (mem_cleared.mpr (.inl hrank))

/-- The filter lets no shadowed component through, the empty one apart. -/
theorem not_mem_shadow_of_asked {shadow : Finset String} {rank : Json} {source : String}
    (hempty : namedSource rank = some "" → "" ∉ shadow)
    (hclear : isShadowedSource shadow (rankSource rank) = false)
    (hsource : namedSource rank = some source) : source ∉ shadow := by
  have hname : rankSource rank = source := by
    rw [rankSource, ← namedSource, hsource, Option.getD_some]
  rw [hname, isShadowedSource, Bool.and_eq_false_iff] at hclear
  rcases hclear with hnil | hclear
  · obtain rfl : source = "" := by simpa using hnil
    exact hempty hsource
  · exact of_decide_eq_false hclear

/-- A feed that lets in only what the filter has let through keeps the buffer unshadowed and outputs
no shadowed component. -/
theorem Unshadowed.feed (h : s.Unshadowed) {id : String} {half : Half} {isShadowed : Bool}
    {prunedAt insertedAt : ℕ} {asked : List AskedRank} (hasked : ∀ call ∈ asked, call ∈ s.asked)
    (hfed : ∀ rank, half = .rank rank → isShadowed = false → rank ∈ s.cleared) :
    Unshadowed ⟨(s.joiner.feed id half isShadowed prunedAt insertedAt).2, asked⟩ ∧
    ∀ out ∈ (s.joiner.feed id half isShadowed prunedAt insertedAt).1.forwarded.map (id, ·),
      ∀ rank ∈ payloadRanks out.2, ∀ source, namedSource rank = some source →
        source ∉ s.joiner.shadow := by
  obtain ⟨hafter, houtput⟩ := SignalsJoiner.forall_feed id prunedAt insertedAt h.buffered
    fun rank hhalf hclear => h rank (hfed rank hhalf hclear)
  constructor
  · intro rank hrank
    change ∀ source, _ → source ∉ (s.joiner.feed id half isShadowed prunedAt insertedAt).2.shadow
    rw [SignalsJoiner.shadow_feed]
    rcases mem_cleared.mp hrank with hbuffered | ⟨call, hcall, hclear, rfl⟩
    · exact hafter rank hbuffered
    · exact h call.rank (mem_cleared.mpr (.inr ⟨call, hasked call hcall, hclear, rfl⟩))
  · intro out hout
    obtain ⟨payload, hpayload, rfl⟩ := List.mem_map.mp hout
    exact houtput payload hpayload

/-- A step that keeps the ranks let through unshadowed outputs no shadowed component. -/
theorem Unshadowed.step (h : s.Unshadowed) {label : JoinStep} (hlabel : s.KeepsUnshadowed label) :
    (s.step label).2.Unshadowed ∧
    ∀ out ∈ (s.step label).1, ∀ rank ∈ payloadRanks out.2, ∀ source,
      namedSource rank = some source → source ∉ s.joiner.shadow := by
  cases label with
  | feedSignal id signal prunedAt insertedAt =>
    exact h.feed (fun _ hcall => hcall) nofun
  | askRank id rank =>
    refine ⟨fun rank' hrank' source hsource => ?_, nofun⟩
    rcases mem_cleared.mp hrank' with hbuffered | ⟨call, hcall, hclear, rfl⟩
    · exact h.buffered rank' hbuffered source hsource
    · rcases List.mem_append.mp hcall with hold | hnew
      · exact h call.rank (mem_cleared.mpr (.inr ⟨call, hold, hclear, rfl⟩)) source hsource
      · cases List.mem_singleton.mp hnew
        exact not_mem_shadow_of_asked hlabel hclear hsource
  | feedRank index prunedAt insertedAt =>
    cases hcall : s.asked[index]? with
    | none =>
      simp only [SharedJoiner.step, hcall]
      exact ⟨h, nofun⟩
    | some call =>
      simp only [SharedJoiner.step, hcall]
      refine h.feed (fun _ => List.mem_of_mem_eraseIdx) ?_
      rintro rank ⟨⟩ hclear
      exact mem_cleared.mpr (.inr ⟨call, List.mem_of_getElem? hcall, hclear, rfl⟩)
  | flushExpired now =>
    constructor
    · intro rank hrank
      rcases mem_cleared.mp hrank with hbuffered | hasked
      · exact h.buffered rank (SignalsJoiner.mem_buffered_of_mem_flushExpired hbuffered)
      · exact h rank (mem_cleared.mpr (.inr hasked))
    · intro out hout rank hrank
      exact h.buffered rank (SignalsJoiner.mem_buffered_of_mem_flushed hout hrank)
  | shadow component =>
    refine ⟨fun rank hrank source hsource => ?_, nofun⟩
    have hother : source ≠ component := by
      rintro rfl
      exact hlabel rank hrank hsource
    exact fun hmem => (Finset.mem_insert.mp hmem).elim hother (h rank hrank source hsource)
  | unshadow component =>
    refine ⟨fun rank hrank source hsource => ?_, nofun⟩
    exact fun hmem => h rank hrank source hsource (Finset.mem_of_mem_erase hmem)
  | replace components =>
    refine ⟨fun rank hrank source hsource => ?_, nofun⟩
    exact fun hmem => hlabel rank hrank source (List.mem_toFinset.mp hmem) hsource

end Steps

/-! ## What reaches the cockpit -/

/-- No payload carries a rank whose source is shadowed when the payload is output. -/
def ShadowHolds (s : SharedJoiner) (steps : List JoinStep) : Prop :=
  ∀ pre label post, steps = pre ++ label :: post →
    ∀ out ∈ ((s.run pre).step label).1, ∀ rank ∈ payloadRanks out.2, ∀ source,
      namedSource rank = some source → source ∉ (s.run pre).joiner.shadow

/-- In a run that shadows no component with a rank the filter has let through, none reaches the
cockpit. -/
theorem shadow_holds_of_keeps (ttl capacity : ℕ) (shadow : Finset String) (steps : List JoinStep)
    (h : ∀ pre label post, steps = pre ++ label :: post →
      ((new ttl capacity shadow).run pre).KeepsUnshadowed label) :
    ShadowHolds (new ttl capacity shadow) steps := by
  have hrun : ∀ pre post, steps = pre ++ post →
      ((new ttl capacity shadow).run pre).Unshadowed :=
    runState_invariant_split SharedJoiner.step Unshadowed
      (fun _ _ hprev hlabel => (hprev.step hlabel).1) (fun _ hmem => by cases hmem) h
  intro pre label post hsplit
  exact ((hrun pre (label :: post) hsplit).step (h pre label post hsplit)).2

/-- A rank of a component. -/
def rankBy (component : String) : Json :=
  .obj [("source", .str component), ("score", .num (.float (1 / 2)))]

/-- A component is shadowed while two ranks have passed the filter, and a rank of it comes after. -/
def otherShadowed : List JoinStep :=
  [.askRank "01HJ" (rankBy "ranking"), .askRank "01HK" (rankBy "ranking"), .feedRank 0 0 0,
    .shadow "news", .feedRank 0 1 1, .askRank "01HJ" (rankBy "news"), .feedRank 0 2 2,
    .feedSignal "01HJ" (.obj [("strategy", .str "obr")]) 3 3, .flushExpired 20]

theorem shadow_holds_otherShadowed : ShadowHolds (new 10 4 ∅) otherShadowed :=
  shadow_holds_of_keeps 10 4 ∅ otherShadowed (forall_split_of_all (by decide +kernel))

/-- A component is shadowed while its rank waits for the signal. -/
def shadowedWhileWaiting : List JoinStep :=
  [.askRank "01HJ" (rankBy "news"), .feedRank 0 0 0, .shadow "news",
    .feedSignal "01HJ" (.obj [("strategy", .str "obr")]) 1 1]

/-- The shadowed rank is joined with the signal. -/
theorem not_shadowHolds_shadowedWhileWaiting :
    ¬ ∀ (ttl capacity : ℕ) (shadow : Finset String) (steps : List JoinStep),
      ShadowHolds (new ttl capacity shadow) steps := by
  intro h
  have hjoin := h 10 4 ∅ shadowedWhileWaiting
    [.askRank "01HJ" (rankBy "news"), .feedRank 0 0 0, .shadow "news"]
    (.feedSignal "01HJ" (.obj [("strategy", .str "obr")]) 1 1) [] rfl
  exact hjoin _ (List.mem_singleton_self _) _ (List.mem_singleton_self _) "news" rfl (by decide)

end SharedJoiner

end Hedge.Gateway
