import Hedge.Common.Run
import Mathlib.Algebra.Order.Ring.Rat
import Mathlib.Data.List.Chain

/-!
# Announcements of the regime engine

Reference: `hedge_warm_ai/regime/{engine,publisher,warm_cache,config}.py`.

An evaluation publishes the edge to a new regime, writes two entries of the warm cache and only then
commits the regime, so a failure on the way makes the next evaluation start from the old one. What
subscribers heard is not taken back: an event that was delivered before a failed write leaves the
engine torn (`Torn`) from them, and the next evaluation that delivers or returns shows it.
-/

namespace Hedge.Ai

open Hedge.Common

/-! ## Model -/

/-- `Regime`. -/
inductive Regime where
  | trending
  | sideways
  | panic
  | highVolatility
  | newsDriven
  | liquidityCrisis
  | lowParticipation
deriving DecidableEq, Repr

/-- `RegimeConfig`: what `evaluate` reads. -/
structure RegimeConfig where
  stabilityFactors : Regime → ℚ
  publishWarmupSkip : ℕ

/-- `RegimeChanged`. -/
structure RegimeChanged where
  from_ : Regime
  to_ : Regime
  tsNs : ℕ
deriving DecidableEq

/-- `MarketStabilityFactor`. -/
structure MarketStabilityFactor where
  value : ℚ
  derivedFrom : Regime
  tsNs : ℕ

/-- `RegimeEvaluation`. -/
structure RegimeEvaluation where
  prior : Option Regime
  current : Regime
  changed : Bool
  emitted : Bool
  stability : MarketStabilityFactor
  publishedAtNs : Option ℕ

/-- The errors of `evaluate`. -/
inductive RegimeError where
  | classification
  | publish
  | marketStabilityCache
deriving DecidableEq, Repr

/-- The engine, the events the bus delivered, and the warm cache. -/
structure RegimeState where
  currentRegime : Option Regime
  warmupRemaining : ℕ
  evaluations : ℕ
  delivered : List RegimeChanged
  factor : Option MarketStabilityFactor
  cachedRegime : Option (Regime × ℕ)

/-- A fresh engine. -/
def RegimeState.init (config : RegimeConfig) : RegimeState :=
  ⟨none, max 1 config.publishWarmupSkip, 0, [], none, none⟩

/-- A call of `evaluate`: what the classifier makes of the observation, and how the bus and the
cache answer. -/
structure RegimeCall where
  classified : Option Regime
  tsNs : ℕ
  clockNs : ℕ
  publishOk : Bool
  factorOk : Bool
  regimeOk : Bool

/-- The event of a call, if it is an edge and the warm-up is over. -/
def RegimeState.edge (s : RegimeState) (call : RegimeCall) : Option RegimeChanged :=
  call.classified.bind fun current => s.currentRegime.bind fun prior =>
    if prior ≠ current ∧ s.warmupRemaining = 0 then some ⟨prior, current, call.tsNs⟩ else none

/-- The cache writes, the factor first; the second one is not tried after a failure of the first. -/
def RegimeState.writeCache (s : RegimeState) (call : RegimeCall) (current : Regime)
    (stability : MarketStabilityFactor) : Bool × RegimeState :=
  if call.factorOk then
    if call.regimeOk then
      (true, { s with factor := some stability, cachedRegime := some (current, call.tsNs) })
    else (false, { s with factor := some stability })
  else (false, s)

/-- The end of `evaluate`, once the edge is published: the cache, then the commit. -/
def RegimeState.commit (config : RegimeConfig) (s : RegimeState) (call : RegimeCall)
    (prior : Option Regime) (current : Regime) (emit : Bool) :
    Except RegimeError RegimeEvaluation × RegimeState :=
  let stability := ⟨config.stabilityFactors current, current, call.tsNs⟩
  let (ok, s) := s.writeCache call current stability
  if ok then
    (.ok ⟨prior, current, prior.any (· ≠ current), emit, stability,
      if emit then some call.clockNs else none⟩,
      { s with
        currentRegime := some current
        warmupRemaining := s.warmupRemaining - 1
        evaluations := s.evaluations + 1 })
  else (.error .marketStabilityCache, s)

/-- `evaluate`. -/
def RegimeState.evaluate (config : RegimeConfig) (s : RegimeState) (call : RegimeCall) :
    Except RegimeError RegimeEvaluation × RegimeState :=
  match call.classified with
  | none => (.error .classification, s)
  | some current =>
    match s.edge call with
    | none => s.commit config call s.currentRegime current false
    | some event =>
      if call.publishOk then
        { s with delivered := s.delivered ++ [event] }.commit config call s.currentRegime current
          true
      else (.error .publish, s)

/-! ## Runs -/

/-- The state, and whether the last call returned normally. -/
structure RegimeRun where
  engine : RegimeState
  returned : Bool

/-- One call of a run. -/
def regimeStep (config : RegimeConfig) (r : RegimeRun) (call : RegimeCall) :
    Except RegimeError RegimeEvaluation × RegimeRun :=
  let out := r.engine.evaluate config call
  (out.1, ⟨out.2, out.1.isOk⟩)

/-- The state after the calls. -/
def regimeRun (config : RegimeConfig) (calls : List RegimeCall) : RegimeRun :=
  runState (regimeStep config) ⟨.init config, false⟩ calls

/-- Each event goes on from the one before, and is a change. -/
def Linked (events : List RegimeChanged) : Prop :=
  events.IsChain (fun a b => b.from_ = a.to_) ∧ ∀ event ∈ events, event.from_ ≠ event.to_

/-- Subscribers heard a chain, and after a normal return they are in the regime of the engine. -/
structure RegimeRun.Consistent (r : RegimeRun) : Prop where
  linked : Linked r.engine.delivered
  current : r.returned = true →
    ∀ event ∈ r.engine.delivered.getLast?, r.engine.currentRegime = some event.to_

/-- The call has an event and the bus takes it. -/
def RegimeState.Delivers (s : RegimeState) (call : RegimeCall) : Prop :=
  (s.edge call).isSome = true ∧ call.publishOk = true

/-- Both cache writes would succeed. -/
def RegimeCall.CacheOk (call : RegimeCall) : Prop := call.factorOk = true ∧ call.regimeOk = true

/-- The observation is classified, the bus takes the event if there is one, and the cache works. -/
def RegimeState.Returns (s : RegimeState) (call : RegimeCall) : Prop :=
  call.classified.isSome = true ∧ ((s.edge call).isSome = true → call.publishOk = true) ∧
    call.CacheOk

/-- The call delivers its event, and a cache write fails after it. -/
def RegimeState.Tears (s : RegimeState) (call : RegimeCall) : Prop :=
  s.Delivers call ∧ ¬ call.CacheOk

/-- The call neither delivers an event nor returns normally. -/
def RegimeState.Silent (s : RegimeState) (call : RegimeCall) : Prop :=
  ¬ s.Delivers call ∧ ¬ s.Returns call

instance (s : RegimeState) (call : RegimeCall) : Decidable (s.Delivers call) :=
  inferInstanceAs (Decidable (_ ∧ _))

instance (call : RegimeCall) : Decidable call.CacheOk := inferInstanceAs (Decidable (_ ∧ _))

instance (s : RegimeState) (call : RegimeCall) : Decidable (s.Returns call) :=
  inferInstanceAs (Decidable (_ ∧ _ ∧ _))

/-! ## One evaluation -/

section Step

variable {config : RegimeConfig} {s : RegimeState} {call : RegimeCall}

theorem edge_eq_some {event : RegimeChanged} (h : s.edge call = some event) :
    s.currentRegime = some event.from_ ∧ call.classified = some event.to_ ∧
      event.from_ ≠ event.to_ ∧ s.warmupRemaining = 0 := by
  obtain ⟨current, hcurrent, hrest⟩ := Option.bind_eq_some_iff.mp h
  obtain ⟨prior, hprior, hevent⟩ := Option.bind_eq_some_iff.mp hrest
  split_ifs at hevent with hedge
  cases hevent
  exact ⟨hprior, hcurrent, hedge⟩

/-- What the end of an evaluation does: it commits if the cache works. -/
theorem commit_spec (config : RegimeConfig) (s : RegimeState) (call : RegimeCall)
    (prior : Option Regime) (current : Regime) (emit : Bool) :
    ((s.commit config call prior current emit).1.isOk = true ↔ call.CacheOk) ∧
      (s.commit config call prior current emit).2.delivered = s.delivered ∧
      (s.commit config call prior current emit).2.currentRegime =
        (if call.CacheOk then some current else s.currentRegime) ∧
      (s.commit config call prior current emit).2.warmupRemaining =
        if call.CacheOk then s.warmupRemaining - 1 else s.warmupRemaining := by
  cases hfactor : call.factorOk <;> cases hregime : call.regimeOk <;>
    simp [RegimeState.commit, RegimeState.writeCache, RegimeCall.CacheOk, hfactor, hregime,
      Except.isOk, Except.toBool]

/-- **What an evaluation does.** It returns if everything works, its event is delivered if the bus
takes it, and the regime is committed with the return. -/
theorem evaluate_spec (config : RegimeConfig) (s : RegimeState) (call : RegimeCall) :
    ((s.evaluate config call).1.isOk = true ↔ s.Returns call) ∧
      (s.evaluate config call).2.delivered =
        (if s.Delivers call then s.delivered ++ (s.edge call).toList else s.delivered) ∧
      (s.evaluate config call).2.currentRegime =
        (if s.Returns call then call.classified else s.currentRegime) ∧
      (s.evaluate config call).2.warmupRemaining =
        if s.Returns call then s.warmupRemaining - 1 else s.warmupRemaining := by
  cases hclass : call.classified with
  | none =>
    have hedge : s.edge call = none := by rw [RegimeState.edge, hclass]; rfl
    simp [RegimeState.evaluate, RegimeState.Returns, RegimeState.Delivers, hclass, hedge,
      Except.isOk, Except.toBool]
  | some current =>
    cases hedge : s.edge call with
    | none =>
      obtain ⟨hok, hdel, hcur, hwarm⟩ :=
        commit_spec config s call s.currentRegime current false
      simp [RegimeState.evaluate, RegimeState.Returns, RegimeState.Delivers, hclass, hedge, hok,
        hdel, hcur, hwarm]
    | some event =>
      cases hpub : call.publishOk with
      | false =>
        simp [RegimeState.evaluate, RegimeState.Returns, RegimeState.Delivers, hclass, hedge,
          hpub, Except.isOk, Except.toBool]
      | true =>
        obtain ⟨hok, hdel, hcur, hwarm⟩ :=
          commit_spec config { s with delivered := s.delivered ++ [event] } call s.currentRegime
            current true
        simp [RegimeState.evaluate, RegimeState.Returns, RegimeState.Delivers, hclass, hedge,
          hpub, hok, hdel, hcur, hwarm]

/-- A call without an event that returns keeps the regime, once the warm-up is over. -/
theorem classified_of_returns (hreturns : s.Returns call) (hdelivers : ¬ s.Delivers call)
    {prior : Regime} (hprior : s.currentRegime = some prior) (hwarm : s.warmupRemaining = 0) :
    call.classified = some prior := by
  obtain ⟨hclass, hpub, -⟩ := hreturns
  obtain ⟨current, hcurrent⟩ := Option.isSome_iff_exists.mp hclass
  by_contra hne
  have hdiff : prior ≠ current := by
    rintro rfl
    exact hne hcurrent
  have hedge : s.edge call = some ⟨prior, current, call.tsNs⟩ := by
    rw [RegimeState.edge, hcurrent, hprior]
    exact if_pos ⟨hdiff, hwarm⟩
  have hsome : (s.edge call).isSome = true := by rw [hedge]; rfl
  exact hdelivers ⟨hsome, hpub hsome⟩

end Step

/-! ## Runs -/

theorem linked_append {events : List RegimeChanged} {event : RegimeChanged} :
    Linked (events ++ [event]) ↔ Linked events ∧ event.from_ ≠ event.to_ ∧
      ∀ last ∈ events.getLast?, event.from_ = last.to_ := by
  rw [Linked, Linked, List.isChain_append, List.forall_mem_append]
  constructor
  · rintro ⟨⟨hchain, -, hlast⟩, hall, hone⟩
    exact ⟨⟨hchain, hall⟩, hone event (List.mem_singleton_self _),
      fun last hmem => hlast last hmem event rfl⟩
  · rintro ⟨⟨hchain, hall⟩, hne, hlast⟩
    refine ⟨⟨hchain, .singleton _, fun last hmem next hnext => ?_⟩, hall, fun next hnext => ?_⟩
    · cases hnext
      exact hlast last hmem
    · rw [List.mem_singleton.mp hnext]
      exact hne

/-- Subscribers heard a chain up to the regime of the engine. -/
structure RegimeRun.InSync (r : RegimeRun) : Prop where
  linked : Linked r.engine.delivered
  last : ∀ event ∈ r.engine.delivered.getLast?,
    r.engine.currentRegime = some event.to_ ∧ r.engine.warmupRemaining = 0

/-- Subscribers heard a chain, and its last event was not committed. -/
structure RegimeRun.Torn (r : RegimeRun) : Prop where
  linked : Linked r.engine.delivered
  warm : r.engine.warmupRemaining = 0
  returned : r.returned = false
  last : ∃ event prior, r.engine.delivered.getLast? = some event ∧
    r.engine.currentRegime = some prior ∧ prior ≠ event.to_

section Runs

variable {config : RegimeConfig} {r : RegimeRun} {call : RegimeCall}

theorem inSync_init (config : RegimeConfig) :
    RegimeRun.InSync ⟨.init config, false⟩ := by
  refine ⟨⟨.nil, fun _ h => ?_⟩, fun _ h => ?_⟩
  · cases h
  · cases h

theorem RegimeRun.InSync.consistent (h : r.InSync) : r.Consistent :=
  ⟨h.linked, fun _ event hlast => (h.last event hlast).1⟩

theorem RegimeRun.Torn.consistent (h : r.Torn) : r.Consistent := by
  refine ⟨h.linked, fun hreturned => ?_⟩
  rw [h.returned] at hreturned
  cases hreturned

/-- An event of an engine in sync goes on from the last one. -/
theorem RegimeRun.InSync.linked_edge (h : r.InSync) {event : RegimeChanged}
    (hedge : r.engine.edge call = some event) : Linked (r.engine.delivered ++ [event]) := by
  obtain ⟨hprior, -, hne, -⟩ := edge_eq_some hedge
  refine linked_append.mpr ⟨h.linked, hne, fun last hlast => ?_⟩
  have hcurrent := (h.last last hlast).1
  rw [hprior] at hcurrent
  exact Option.some.inj hcurrent

/-- A call that does not tear keeps subscribers in sync. -/
theorem RegimeRun.InSync.step (h : r.InSync) (htears : ¬ r.engine.Tears call) :
    (regimeStep config r call).2.InSync := by
  obtain ⟨-, hdel, hcur, hwarm⟩ := evaluate_spec config r.engine call
  by_cases hdelivers : r.engine.Delivers call
  · obtain ⟨event, hedge⟩ := Option.isSome_iff_exists.mp hdelivers.1
    obtain ⟨-, hclass, -, hzero⟩ := edge_eq_some hedge
    have hreturns : r.engine.Returns call := by
      refine ⟨by rw [hclass]; rfl, fun _ => hdelivers.2, ?_⟩
      by_contra hcache
      exact htears ⟨hdelivers, hcache⟩
    rw [if_pos hdelivers, hedge] at hdel
    rw [if_pos hreturns] at hcur hwarm
    refine ⟨?_, fun last hlast => ?_⟩
    · show Linked (r.engine.evaluate config call).2.delivered
      rw [hdel]
      exact h.linked_edge hedge
    · have hlast' : (r.engine.evaluate config call).2.delivered.getLast? = some last := hlast
      rw [hdel, Option.toList_some, List.getLast?_concat] at hlast'
      cases hlast'
      exact ⟨hcur.trans hclass, hwarm.trans (by rw [hzero])⟩
  · rw [if_neg hdelivers] at hdel
    refine ⟨?_, fun last hlast => ?_⟩
    · show Linked (r.engine.evaluate config call).2.delivered
      rw [hdel]
      exact h.linked
    · have hlast' : (r.engine.evaluate config call).2.delivered.getLast? = some last := hlast
      rw [hdel] at hlast'
      obtain ⟨hprior, hzero⟩ := h.last last hlast'
      by_cases hreturns : r.engine.Returns call
      · rw [if_pos hreturns] at hcur hwarm
        have hclass := classified_of_returns hreturns hdelivers hprior hzero
        exact ⟨hcur.trans hclass, hwarm.trans (by rw [hzero])⟩
      · rw [if_neg hreturns] at hcur hwarm
        exact ⟨hcur.trans hprior, hwarm.trans hzero⟩

/-- A call that tears leaves the event uncommitted. -/
theorem RegimeRun.InSync.tear (h : r.InSync) (htears : r.engine.Tears call) :
    (regimeStep config r call).2.Torn := by
  obtain ⟨hok, hdel, hcur, hwarm⟩ := evaluate_spec config r.engine call
  obtain ⟨hdelivers, hcache⟩ := htears
  obtain ⟨event, hedge⟩ := Option.isSome_iff_exists.mp hdelivers.1
  obtain ⟨hprior, -, hne, hzero⟩ := edge_eq_some hedge
  have hreturns : ¬ r.engine.Returns call := fun hreturns => hcache hreturns.2.2
  rw [if_pos hdelivers, hedge, Option.toList_some] at hdel
  rw [if_neg hreturns] at hcur hwarm
  refine ⟨?_, hwarm.trans hzero, ?_, event, event.from_, ?_, hcur.trans hprior, hne⟩
  · show Linked (r.engine.evaluate config call).2.delivered
    rw [hdel]
    exact h.linked_edge hedge
  · exact Bool.eq_false_iff.mpr fun hreturned => hreturns (hok.mp hreturned)
  · show (r.engine.evaluate config call).2.delivered.getLast? = some event
    rw [hdel, List.getLast?_concat]

/-- A torn engine shows it as soon as it delivers an event or returns. -/
theorem RegimeRun.Torn.silent (h : r.Torn) (hcons : (regimeStep config r call).2.Consistent) :
    r.engine.Silent call := by
  obtain ⟨hok, hdel, hcur, -⟩ := evaluate_spec config r.engine call
  obtain ⟨last, prior, hlast, hprior, hne⟩ := h.last
  have hquiet : ¬ r.engine.Delivers call := by
    intro hdelivers
    obtain ⟨event, hedge⟩ := Option.isSome_iff_exists.mp hdelivers.1
    have hlinked : Linked (r.engine.evaluate config call).2.delivered := hcons.linked
    rw [hdel, if_pos hdelivers, hedge, Option.toList_some] at hlinked
    have hfrom := (linked_append.mp hlinked).2.2 last hlast
    have heq := (edge_eq_some hedge).1
    rw [hprior] at heq
    exact hne ((Option.some.inj heq).trans hfrom)
  refine ⟨hquiet, fun hreturns => ?_⟩
  have hclass := classified_of_returns hreturns hquiet hprior h.warm
  have hcurrent := hcons.current (hok.mpr hreturns) last (by
    show (r.engine.evaluate config call).2.delivered.getLast? = some last
    rw [hdel, if_neg hquiet, hlast])
  have hcommit : (r.engine.evaluate config call).2.currentRegime = some prior := by
    rw [hcur, if_pos hreturns, hclass]
  exact hne (Option.some.inj (hcommit.symm.trans hcurrent))

/-- A silent call changes nothing of it. -/
theorem RegimeRun.Torn.step (h : r.Torn) (hsilent : r.engine.Silent call) :
    (regimeStep config r call).2.Torn := by
  obtain ⟨hok, hdel, hcur, hwarm⟩ := evaluate_spec config r.engine call
  rw [if_neg hsilent.1] at hdel
  rw [if_neg hsilent.2] at hcur hwarm
  refine ⟨?_, hwarm.trans h.warm, ?_, ?_⟩
  · show Linked (r.engine.evaluate config call).2.delivered
    rw [hdel]
    exact h.linked
  · exact Bool.eq_false_iff.mpr fun hreturned => hsilent.2 (hok.mp hreturned)
  · obtain ⟨last, prior, hlast, hprior, hne⟩ := h.last
    exact ⟨last, prior, (congrArg List.getLast? hdel).trans hlast, hcur.trans hprior, hne⟩

/-- No call that tears is followed by one that delivers an event or returns normally. -/
def NoTearShows (config : RegimeConfig) (r : RegimeRun) (calls : List RegimeCall) : Prop :=
  ∀ pre call post, calls = pre ++ call :: post →
    (runState (regimeStep config) r pre).engine.Tears call →
    ∀ mid later rest, post = mid ++ later :: rest →
      (runState (regimeStep config) r (pre ++ call :: mid)).engine.Silent later

/-- From a state in sync. -/
theorem RegimeRun.InSync.consistent_iff (h : r.InSync) (calls : List RegimeCall) :
    (∀ pre post, calls = pre ++ post → (runState (regimeStep config) r pre).Consistent) ↔
      NoTearShows config r calls := by
  induction calls generalizing r with
  | nil =>
    refine iff_of_true (fun pre post hsplit => ?_) forall_split_nil
    rw [(List.append_eq_nil_iff.mp hsplit.symm).1]
    exact h.consistent
  | cons call calls ih =>
    rw [forall_prefix_cons_iff, NoTearShows, forall_split_cons_iff]
    simp only [runState_nil, List.nil_append, List.cons_append, runState_cons]
    by_cases htears : r.engine.Tears call
    · -- the rest of the run starts torn, and has to be silent
      have htorn : (regimeStep config r call).2.Torn := h.tear htears
      have hrest : (∀ pre post, calls = pre ++ post →
          (runState (regimeStep config) (regimeStep config r call).2 pre).Consistent) ↔
          ∀ pre call' post, calls = pre ++ call' :: post →
            (runState (regimeStep config) (regimeStep config r call).2 pre).engine.Silent call' :=
        runState_observed_iff (regimeStep config) RegimeRun.Torn RegimeRun.Consistent
          (fun r call => r.engine.Silent call) (fun _ h => h.consistent)
          (fun _ _ h hcons => h.silent hcons) (fun _ _ h hsilent => h.step hsilent) htorn
      rw [hrest]
      constructor
      · rintro ⟨-, hsilent⟩
        refine ⟨fun _ => hsilent, fun pre call' post hsplit htears' => ?_⟩
        exact absurd htears'.1 (hsilent pre call' post hsplit).1
      · rintro ⟨hsilent, -⟩
        exact ⟨h.consistent, hsilent htears⟩
    · rw [ih (h.step htears)]
      constructor
      · rintro ⟨-, hrest⟩
        exact ⟨fun hcon => absurd hcon htears, hrest⟩
      · rintro ⟨-, hrest⟩
        exact ⟨h.consistent, hrest⟩

end Runs

/-- **The announcements are consistent all along a run exactly if no torn call shows.** -/
theorem announcements_consistent_iff (config : RegimeConfig) (calls : List RegimeCall) :
    (∀ pre post, calls = pre ++ post → (regimeRun config pre).Consistent) ↔
      NoTearShows config ⟨.init config, false⟩ calls :=
  (inSync_init config).consistent_iff calls

/-- A panic that is announced while the cache is down, and is over at the next evaluation. -/
def passingPanic : List RegimeCall :=
  [⟨some .sideways, 1, 1, true, true, true⟩, ⟨some .panic, 2, 2, true, false, true⟩,
    ⟨some .sideways, 3, 3, true, true, true⟩]

/-- Subscribers stay in a panic that the engine never committed. -/
theorem passing_panic_not_consistent :
    ¬ ∀ (config : RegimeConfig) (calls : List RegimeCall), (regimeRun config calls).Consistent := by
  intro h
  have hcons := h ⟨fun _ => 1, 1⟩ passingPanic
  exact absurd (hcons.current rfl ⟨.sideways, .panic, 2⟩ rfl) (by decide)

end Hedge.Ai
