import Hedge.Ai.Priority
import Hedge.Common.Run

/-!
# Runs of the symbol priority engine

`PriorityRun.Kept` is what the engine promises: the two maps have the same symbols, the tier of an
intent stays, and the events of a symbol lead from its first tier to the one it has. The first part
holds in every run (`total_priorityRun`). For the others each call must be `Served`: the publisher
takes the event of each change, and the warm cache the symbol that an intent starts to track.
-/

namespace Hedge.Ai

open Hedge.Common

/-! ## Runs -/

/-- The intents that stand after a call: the last one of each symbol since it was untracked. -/
def PriorityCall.standing (standing : String → Option PriorityTier) :
    PriorityCall → String → Option PriorityTier
  | .onTraderIntent intent => Function.update standing intent.symbol.name (some intent.to_)
  | .untrack symbol => Function.update standing symbol none
  | _ => standing

/-- Since when symbols are tracked: with which tier, and after how many events. -/
def sinceAfter (since : String → Option (PriorityTier × ℕ)) (before after : PriorityState)
    (symbol : String) : Option (PriorityTier × ℕ) :=
  if (before.tier? symbol).isSome then since symbol
  else (after.tier? symbol).map fun tier => (tier, before.published.length)

/-- The engine, the intents that stand, and since when symbols are tracked. -/
structure PriorityRun where
  engine : PriorityState
  standing : String → Option PriorityTier
  since : String → Option (PriorityTier × ℕ)

/-- One call of a run. -/
def priorityStep (policy : DefaultPriorityPolicy) (r : PriorityRun)
    (call : PriorityCall × PriorityEnv) : Option PriorityError × PriorityRun :=
  let out := r.engine.step policy call
  (out.1, ⟨out.2, call.1.standing r.standing, sinceAfter r.since r.engine out.2⟩)

/-- The state after the calls. -/
def priorityRun (policy : DefaultPriorityPolicy) (calls : List (PriorityCall × PriorityEnv)) :
    PriorityRun :=
  runState (priorityStep policy) ⟨.init, fun _ => none, fun _ => none⟩ calls

/-- The two maps have the same symbols, an intent that stands is the tier, and the events since a
symbol is tracked lead to its tier. -/
structure PriorityRun.Kept (r : PriorityRun) : Prop where
  total : ∀ symbol, (r.engine.tier? symbol).isSome = (r.engine.state? symbol).isSome
  authoritative : ∀ symbol tier, r.standing symbol = some tier → r.engine.tier? symbol = some tier
  announced : ∀ symbol tier, r.engine.tier? symbol = some tier → ∃ first start,
    r.since symbol = some (first, start) ∧
      Unbroken first (eventsOf symbol (r.engine.published.drop start)) tier

/-- The inputs of the engine with the one of the call. -/
def PriorityCall.record (s : PriorityState) : PriorityCall → PriorityState
  | .onTraderIntent intent => (s.recordTrader intent).2
  | .onRegimeChange change => { s with regime := some change.to_ }
  | .onNewsImpact impact => (s.recordNews impact).2
  | _ => s

/-- The symbols that the call recomputes. -/
def PriorityCall.targets (s : PriorityState) : PriorityCall → List String
  | .onTraderIntent intent => [intent.symbol.name]
  | .onNewsImpact impact => [impact.symbol.name]
  | .onRegimeChange _ => s.tiers.order
  | .recomputeAll => s.tiers.order
  | _ => []

/-- What a call needs: the publisher takes the event of each tier it changes, and the warm cache
takes the symbol that an intent starts to track. -/
structure Served (policy : DefaultPriorityPolicy) (r : PriorityRun)
    (call : PriorityCall × PriorityEnv) : Prop where
  announces : ∀ symbol ∈ call.1.targets r.engine,
    (call.1.record r.engine).Changes policy symbol → call.2.Announces symbol
  tracks : ∀ intent, call.1 = .onTraderIntent intent →
    r.engine.tier? intent.symbol.name = none → call.2.putOk intent.symbol.name = true

/-- **The two maps have the same symbols in every run**, whatever the calls raise. -/
theorem total_priorityRun (policy : DefaultPriorityPolicy)
    (calls : List (PriorityCall × PriorityEnv)) : (priorityRun policy calls).engine.Total := by
  apply runState_invariant_all (priorityStep policy) (fun r => r.engine.Total)
  · intro r call hr
    exact hr.step call
  · intro symbol
    rfl

/-! ## What stands and what is announced -/

/-- The last intent recorded for a symbol gives it the tier. -/
def PriorityState.Records (s : PriorityState) (symbol : String) (tier : PriorityTier) : Prop :=
  ∃ st intent, s.state? symbol = some st ∧ st.lastTrader = some intent ∧
    intent.symbol.name = symbol ∧ intent.to_ = tier

/-- A run so far: an intent that stands is recorded and is the tier, and the events since a symbol
is tracked lead to its tier. -/
structure PriorityRun.Inv (r : PriorityRun) : Prop where
  total : r.engine.Total
  recorded : ∀ symbol tier, r.standing symbol = some tier → r.engine.Records symbol tier
  authoritative : ∀ symbol tier, r.standing symbol = some tier → r.engine.tier? symbol = some tier
  announced : ∀ symbol tier, r.engine.tier? symbol = some tier → ∃ first start,
    r.since symbol = some (first, start) ∧ start ≤ r.engine.published.length ∧
      Unbroken first (eventsOf symbol (r.engine.published.drop start)) tier

theorem PriorityRun.Inv.kept {r : PriorityRun} (h : r.Inv) : r.Kept := by
  refine ⟨h.total, h.authoritative, fun symbol tier htier => ?_⟩
  obtain ⟨first, start, hsince, -, hchain⟩ := h.announced symbol tier htier
  exact ⟨first, start, hsince, hchain⟩

section Calls

variable {policy : DefaultPriorityPolicy} {env : PriorityEnv} {r : PriorityRun}
  {s s' : PriorityState} {standing : String → Option PriorityTier}

/-- The policy gives a symbol the tier of its last intent. -/
theorem PriorityState.assigned_of_lastTrader {symbol : String} {st : SymbolState}
    {intent : TraderIntentPriority} (hlast : st.lastTrader = some intent)
    (hsymbol : intent.symbol.name = symbol) : s.assigned policy symbol st = intent.to_ := by
  rw [PriorityState.assigned, DefaultPriorityPolicy.assign, hlast]
  exact if_pos hsymbol

/-- A tracked symbol has inputs. -/
theorem PriorityState.Total.exists_state {symbol : String} {tier : PriorityTier} (hs : s.Total)
    (htier : s.tier? symbol = some tier) : ∃ st, s.state? symbol = some st := by
  apply Option.isSome_iff_exists.mp
  rw [← hs symbol, htier]
  rfl

/-- A recompute leaves a symbol with a standing intent at the tier of that intent. -/
theorem Recomputed.keeps_tier (h : Recomputed policy s s') {symbol : String} {tier : PriorityTier}
    (hrecorded : s.Records symbol tier) (htier : s.tier? symbol = some tier) :
    s'.tier? symbol = some tier := by
  obtain ⟨st, intent, hst, hlast, hsymbol, rfl⟩ := hrecorded
  rcases h.tier symbol with heq | ⟨-, st', hst', heq⟩
  · rw [heq, htier]
  · rw [hst] at hst'
    cases hst'
    rw [heq, PriorityState.assigned_of_lastTrader hlast hsymbol]

theorem Recomputed.records (h : Recomputed policy s s') {symbol : String} {tier : PriorityTier}
    (hrecorded : s.Records symbol tier) : s'.Records symbol tier := by
  obtain ⟨st, intent, hst, hrest⟩ := hrecorded
  exact ⟨st, intent, (h.state? symbol).trans hst, hrest⟩

/-- **An input and a recompute**: the input is recorded in `s`, which leads to `s'`, and the events
of the changes are published. -/
theorem PriorityRun.Inv.recompute (hr : r.Inv) (htiers : s.tiers = r.engine.tiers)
    (hpublished : s.published = r.engine.published) (hs : s.Total)
    (hrecomputed : Recomputed policy s s') (htold : Told s s')
    (hrecorded : ∀ symbol tier, standing symbol = some tier → s.Records symbol tier)
    (hstands : ∀ symbol tier, standing symbol = some tier → s'.tier? symbol = some tier) :
    PriorityRun.Inv ⟨s', standing, sinceAfter r.since r.engine s'⟩ := by
  have htier : ∀ symbol, s.tier? symbol = r.engine.tier? symbol := by
    intro symbol
    rw [PriorityState.tier?, htiers]
    rfl
  refine ⟨hrecomputed.total hs, fun symbol tier h => ?_, hstands, fun symbol tier h => ?_⟩
  · exact hrecomputed.records (hrecorded symbol tier h)
  · obtain ⟨events, hpub, htell⟩ := htold
    have hsome : (r.engine.tier? symbol).isSome = true := by
      rw [← htier, ← hrecomputed.isSome, show s'.tier? symbol = some tier from h]
      rfl
    obtain ⟨before, hbefore⟩ := Option.isSome_iff_exists.mp hsome
    obtain ⟨first, start, hsince, hstart, hchain⟩ := hr.announced symbol before hbefore
    obtain ⟨after, hafter, hchain'⟩ := htell symbol before ((htier symbol).trans hbefore)
    have hsame : s'.tier? symbol = some tier := h
    obtain rfl : tier = after := Option.some.inj (hsame.symm.trans hafter)
    rw [hpublished] at hpub
    refine ⟨first, start, ?_, ?_, ?_⟩
    · show sinceAfter r.since r.engine s' symbol = _
      rw [sinceAfter, if_pos hsome, hsince]
    · show start ≤ s'.published.length
      rw [hpub, List.length_append]
      exact Nat.le_add_right_of_le hstart
    · show Unbroken first (eventsOf symbol (s'.published.drop start)) tier
      rw [hpub, List.drop_append_of_le_length hstart, eventsOf, List.filter_append]
      exact hchain.append hchain'

/-- **A symbol enters or leaves**: nothing else changes and nothing is published. -/
theorem PriorityRun.Inv.replace (hr : r.Inv) (symbol : String) (hs : s.Total)
    (hpublished : s.published = r.engine.published)
    (htiers : ∀ sym, sym ≠ symbol → s.tier? sym = r.engine.tier? sym)
    (hstates : ∀ sym, sym ≠ symbol → s.state? sym = r.engine.state? sym)
    (hstanding : ∀ sym, sym ≠ symbol → standing sym = r.standing sym)
    (hnew : r.engine.tier? symbol = none ∨ s.tier? symbol = none)
    (hintent : ∀ tier, standing symbol = some tier →
      s.Records symbol tier ∧ s.tier? symbol = some tier) :
    PriorityRun.Inv ⟨s, standing, sinceAfter r.since r.engine s⟩ := by
  refine ⟨hs, fun sym tier h => ?_, fun sym tier h => ?_, fun sym tier h => ?_⟩
  · by_cases hsym : sym = symbol
    · subst hsym
      exact (hintent tier h).1
    · obtain ⟨st, intent, hst, hrest⟩ := hr.recorded sym tier ((hstanding sym hsym).symm.trans h)
      exact ⟨st, intent, (hstates sym hsym).trans hst, hrest⟩
  · by_cases hsym : sym = symbol
    · subst hsym
      exact (hintent tier h).2
    · show s.tier? sym = some tier
      rw [htiers sym hsym]
      exact hr.authoritative sym tier ((hstanding sym hsym).symm.trans h)
  · replace h : s.tier? sym = some tier := h
    by_cases hsym : sym = symbol
    · subst hsym
      rcases hnew with hnone | hnone
      · -- the chain of a symbol that enters is empty
        refine ⟨tier, r.engine.published.length, ?_, ?_, ?_⟩
        · show sinceAfter r.since r.engine s sym = _
          rw [sinceAfter, hnone, h]
          rfl
        · exact (congrArg List.length hpublished).ge
        · show Unbroken tier (eventsOf sym (s.published.drop r.engine.published.length)) tier
          rw [hpublished, List.drop_length]
          rfl
      · rw [hnone] at h
        cases h
    · have hbefore := (htiers sym hsym).symm.trans h
      obtain ⟨first, start, hsince, hstart, hchain⟩ := hr.announced sym tier hbefore
      refine ⟨first, start, ?_, ?_, ?_⟩
      · show sinceAfter r.since r.engine s sym = _
        rw [sinceAfter, hbefore]
        exact hsince
      · exact hstart.trans_eq (congrArg List.length hpublished).symm
      · show Unbroken first (eventsOf sym (s.published.drop start)) tier
        rw [hpublished]
        exact hchain

/-- A write of inputs that leaves the last intent leaves what is recorded. -/
theorem PriorityState.Records.write {symbol other : String} {tier : PriorityTier}
    {st st' : SymbolState} (h : s.Records symbol tier) (hst : s.state? other = some st)
    (hlast : st'.lastTrader = st.lastTrader) :
    PriorityState.Records { s with states := s.states.put other st' } symbol tier := by
  obtain ⟨st₀, intent, hst₀, hintent, hrest⟩ := h
  by_cases hsym : symbol = other
  · subst hsym
    rw [hst] at hst₀
    cases hst₀
    exact ⟨st', intent, FifoMap.lookup_put_self _ _, hlast.trans hintent, hrest⟩
  · exact ⟨st₀, intent, (FifoMap.lookup_put_ne hsym _).trans hst₀, hintent, hrest⟩

/-- A call that changes nothing. -/
theorem PriorityRun.Inv.unchanged (hr : r.Inv) :
    PriorityRun.Inv ⟨r.engine, r.standing, sinceAfter r.since r.engine r.engine⟩ :=
  hr.recompute rfl rfl hr.total (.refl .standard _) (.refl _) hr.recorded
    hr.authoritative

theorem PriorityRun.Inv.track (hr : r.Inv) (symbol : String)
    (initialTier baseline : Option PriorityTier) :
    PriorityRun.Inv ⟨(r.engine.track env symbol initialTier baseline).2, r.standing,
      sinceAfter r.since r.engine (r.engine.track env symbol initialTier baseline).2⟩ := by
  have htotal := hr.total.track env symbol initialTier baseline
  by_cases hempty : symbol = ""
  · rw [PriorityState.track, if_pos hempty]
    exact hr.unchanged
  cases htier : r.engine.tier? symbol with
  | some tier =>
    rw [PriorityState.track, if_neg hempty, htier]
    exact hr.unchanged
  | none =>
    have hnone : ∀ tier, r.standing symbol ≠ some tier := by
      intro tier h
      rw [hr.authoritative symbol tier h] at htier
      cases htier
    have hstate : (r.engine.track env symbol initialTier baseline).2 = { r.engine with
        tiers := r.engine.tiers.put symbol (initialTier.getD (baseline.getD .p3))
        states := r.engine.states.put symbol ⟨none, none, baseline.getD .p3⟩ } := by
      rw [PriorityState.track, if_neg hempty, htier]
      dsimp only
      split_ifs <;> rfl
    apply hr.replace symbol htotal
    · rw [hstate]
    · intro sym hsym
      rw [hstate]
      exact FifoMap.lookup_put_ne hsym _
    · intro sym hsym
      rw [hstate]
      exact FifoMap.lookup_put_ne hsym _
    · intro sym _
      rfl
    · exact .inl htier
    · intro tier h
      exact absurd h (hnone tier)

theorem PriorityRun.Inv.untrack (hr : r.Inv) (symbol : String) :
    PriorityRun.Inv ⟨r.engine.untrack symbol, Function.update r.standing symbol none,
      sinceAfter r.since r.engine (r.engine.untrack symbol)⟩ := by
  apply hr.replace symbol (hr.total.untrack symbol) rfl
  · intro sym hsym
    exact FifoMap.lookup_remove_ne hsym
  · intro sym hsym
    exact FifoMap.lookup_remove_ne hsym
  · intro sym hsym
    exact Function.update_of_ne hsym _ _
  · exact .inr (FifoMap.lookup_remove_self symbol)
  · intro tier h
    rw [Function.update_self] at h
    cases h

/-- An intent for a symbol that is not tracked, once the warm cache has taken it. -/
theorem PriorityRun.Inv.enter (hr : r.Inv) {intent : TraderIntentPriority}
    (htier : r.engine.tier? intent.symbol.name = none)
    (hput : env.putOk intent.symbol.name = true) :
    PriorityRun.Inv ⟨(r.engine.onTraderIntent policy env intent).2,
      Function.update r.standing intent.symbol.name (some intent.to_),
      sinceAfter r.since r.engine (r.engine.onTraderIntent policy env intent).2⟩ := by
  have hempty : intent.symbol.name ≠ "" := by
    intro h
    have hlen := intent.symbol.min_length
    rw [h] at hlen
    exact absurd hlen (by decide)
  have hstate : (r.engine.onTraderIntent policy env intent).2 = { r.engine with
      tiers := r.engine.tiers.put intent.symbol.name intent.to_
      states := (r.engine.states.put intent.symbol.name ⟨none, none, .p3⟩).put intent.symbol.name
        ⟨none, some intent, .p3⟩ } := by
    rw [PriorityState.onTraderIntent, if_pos htier, PriorityState.track, if_neg hempty, htier]
    dsimp only
    rw [if_pos hput]
    show (PriorityState.recordTrader _ intent).2 = _
    rw [PriorityState.recordTrader, PriorityState.state?]
    dsimp only
    rw [FifoMap.lookup_put_self]
    rfl
  have htotal : (r.engine.onTraderIntent policy env intent).2.Total := by
    rw [← outcome_snd (r.engine.onTraderIntent policy env intent)]
    exact hr.total.step (.onTraderIntent intent, env)
  rw [hstate] at htotal ⊢
  apply hr.replace intent.symbol.name htotal
  · rfl
  · intro sym hsym
    exact FifoMap.lookup_put_ne hsym _
  · intro sym hsym
    exact (FifoMap.lookup_put_ne hsym _).trans (FifoMap.lookup_put_ne hsym _)
  · intro sym hsym
    exact Function.update_of_ne hsym _ _
  · exact .inl htier
  · intro tier h
    rw [Function.update_self] at h
    obtain rfl := Option.some.inj h
    exact ⟨⟨_, intent, FifoMap.lookup_put_self _ _, rfl, rfl, rfl⟩, FifoMap.lookup_put_self _ _⟩

/-- An intent for a tracked symbol whose change, if there is one, is announced. -/
theorem PriorityRun.Inv.intent (hr : r.Inv) {intent : TraderIntentPriority}
    (htier : r.engine.tier? intent.symbol.name ≠ none)
    (hannounces : (r.engine.recordTrader intent).2.Changes policy intent.symbol.name →
      env.Announces intent.symbol.name) :
    PriorityRun.Inv ⟨(r.engine.onTraderIntent policy env intent).2,
      Function.update r.standing intent.symbol.name (some intent.to_),
      sinceAfter r.since r.engine (r.engine.onTraderIntent policy env intent).2⟩ := by
  obtain ⟨before, hbefore⟩ := Option.ne_none_iff_exists'.mp htier
  obtain ⟨st, hst⟩ := hr.total.exists_state hbefore
  have hrecord : r.engine.recordTrader intent = (.ok (), { r.engine with
      states := r.engine.states.put intent.symbol.name
        { st with lastTrader := some intent } }) := by
    rw [PriorityState.recordTrader, hst]
  rw [PriorityState.onTraderIntent, if_neg htier, hrecord]
  rw [hrecord] at hannounces
  set s : PriorityState := { r.engine with
    states := r.engine.states.put intent.symbol.name { st with lastTrader := some intent } }
  have hown : s.state? intent.symbol.name = some { st with lastTrader := some intent } :=
    FifoMap.lookup_put_self _ _
  have hrecorded : ∀ symbol tier, Function.update r.standing intent.symbol.name (some intent.to_)
      symbol = some tier → s.Records symbol tier := by
    intro symbol tier h
    by_cases hsym : symbol = intent.symbol.name
    · subst hsym
      rw [Function.update_self] at h
      obtain rfl := Option.some.inj h
      exact ⟨_, intent, hown, rfl, rfl, rfl⟩
    · rw [Function.update_of_ne hsym] at h
      obtain ⟨st₀, intent₀, hst₀, hrest⟩ := hr.recorded symbol tier h
      exact ⟨st₀, intent₀, (FifoMap.lookup_put_ne hsym _).trans hst₀, hrest⟩
  have hrecomputed := recomputed_recomputeAndEmit policy env s intent.symbol.name
  refine hr.recompute (s := s) rfl rfl (hr.total.write hst _) hrecomputed
    (told_recomputeAndEmit hannounces) hrecorded fun symbol tier h => ?_
  by_cases hsym : symbol = intent.symbol.name
  · subst hsym
    rw [Function.update_self] at h
    obtain rfl := Option.some.inj h
    refine (tier?_recomputeAndEmit (s := s) hbefore hown).trans ?_
    rw [PriorityState.assigned_of_lastTrader rfl rfl]
  · refine hrecomputed.keeps_tier (hrecorded symbol tier h) ?_
    rw [Function.update_of_ne hsym] at h
    exact hr.authoritative symbol tier h

theorem PriorityRun.Inv.news (hr : r.Inv) {impact : NewsImpact}
    (hannounces : (r.engine.recordNews impact).2.Changes policy impact.symbol.name →
      env.Announces impact.symbol.name) :
    PriorityRun.Inv ⟨(r.engine.onNewsImpact policy env impact).2, r.standing,
      sinceAfter r.since r.engine (r.engine.onNewsImpact policy env impact).2⟩ := by
  rw [PriorityState.onNewsImpact]
  cases hbefore : r.engine.tier? impact.symbol.name with
  | none =>
    rw [if_pos rfl]
    exact hr.unchanged
  | some before =>
    rw [if_neg (by simp)]
    obtain ⟨st, hst⟩ := hr.total.exists_state hbefore
    have hrecord : r.engine.recordNews impact = (.ok (), { r.engine with
        states := r.engine.states.put impact.symbol.name
          { st with lastNews := some impact } }) := by
      rw [PriorityState.recordNews, hst]
    rw [hrecord]
    rw [hrecord] at hannounces
    set s : PriorityState := { r.engine with
      states := r.engine.states.put impact.symbol.name { st with lastNews := some impact } }
    have hrecorded : ∀ symbol tier, r.standing symbol = some tier → s.Records symbol tier :=
      fun symbol tier h => (hr.recorded symbol tier h).write hst rfl
    have hrecomputed := recomputed_recomputeAndEmit policy env s impact.symbol.name
    refine hr.recompute (s := s) rfl rfl (hr.total.write hst _) hrecomputed
      (told_recomputeAndEmit hannounces) hrecorded fun symbol tier h => ?_
    exact hrecomputed.keeps_tier (hrecorded symbol tier h) (hr.authoritative symbol tier h)

/-- All tracked symbols, after a change of the regime or none. -/
theorem PriorityRun.Inv.each (hr : r.Inv) (regime : Option Regime)
    (hannounces : ∀ symbol ∈ r.engine.tiers.order,
      PriorityState.Changes policy { r.engine with regime := regime } symbol →
        env.Announces symbol) :
    PriorityRun.Inv ⟨({ r.engine with regime := regime }.recomputeEach policy env
        r.engine.tiers.order).2, r.standing, sinceAfter r.since r.engine
      ({ r.engine with regime := regime }.recomputeEach policy env r.engine.tiers.order).2⟩ := by
  have hrecomputed := recomputed_recomputeEach policy env r.engine.tiers.order
    { r.engine with regime := regime }
  refine hr.recompute (s := { r.engine with regime := regime }) rfl rfl hr.total hrecomputed
    (told_recomputeEach hannounces) hr.recorded fun symbol tier h => ?_
  exact hrecomputed.keeps_tier (hr.recorded symbol tier h) (hr.authoritative symbol tier h)

/-- A call from the state it leaves behind. -/
theorem PriorityRun.Inv.of_step {call : PriorityCall × PriorityEnv}
    (hout : (r.engine.step policy call).2 = s)
    (h : PriorityRun.Inv ⟨s, call.1.standing r.standing, sinceAfter r.since r.engine s⟩) :
    (priorityStep policy r call).2.Inv := by
  subst hout
  exact h

/-- **A call that is served keeps all three promises.** -/
theorem PriorityRun.Inv.step (hr : r.Inv) {call : PriorityCall × PriorityEnv}
    (hserved : Served policy r call) : (priorityStep policy r call).2.Inv := by
  obtain ⟨call, env⟩ := call
  cases call with
  | track symbol initialTier baseline =>
    exact .of_step (outcome_snd _) (hr.track symbol initialTier baseline)
  | untrack symbol => exact .of_step rfl (hr.untrack symbol)
  | onTraderIntent intent =>
    refine .of_step (s := (r.engine.onTraderIntent policy env intent).2) (outcome_snd _) ?_
    by_cases htier : r.engine.tier? intent.symbol.name = none
    · exact hr.enter htier (hserved.tracks intent rfl htier)
    · exact hr.intent htier (hserved.announces _ List.mem_cons_self)
  | onRegimeChange change =>
    exact .of_step (outcome_snd _) (hr.each (some change.to_) hserved.announces)
  | onNewsImpact impact =>
    exact .of_step (outcome_snd _) (hr.news (hserved.announces _ List.mem_cons_self))
  | recomputeAll => exact .of_step (outcome_snd _) (hr.each r.engine.regime hserved.announces)

end Calls

/-- **The promises of the engine in a run whose calls are served**, at every point of it. -/
theorem kept_of_served (policy : DefaultPriorityPolicy) (calls : List (PriorityCall × PriorityEnv))
    (hserved : ∀ pre call post, calls = pre ++ call :: post →
      Served policy (priorityRun policy pre) call) :
    ∀ pre post, calls = pre ++ post → (priorityRun policy pre).Kept := by
  intro pre post hsplit
  apply PriorityRun.Inv.kept
  refine runState_invariant_split (priorityStep policy) PriorityRun.Inv
    (fun r call hr => hr.step) ⟨fun _ => rfl, ?_, ?_, ?_⟩ hserved pre post hsplit
  · intro symbol tier h
    cases h
  · intro symbol tier h
    cases h
  · intro symbol tier h
    cases h

/-- A symbol, and a warm cache and a publisher that never fail. -/
def ethSymbol : ValidSymbol := ⟨"ETH", by decide, by decide⟩

@[inherit_doc ethSymbol]
def allOk : PriorityEnv := ⟨fun _ => true, fun _ => true, fun _ => 7⟩

theorem kept_after_intent :
    (priorityRun .standard [(.track "ETH" none none, allOk),
      (.onTraderIntent ⟨ethSymbol, .p1⟩, allOk)]).Kept := by
  refine kept_of_served .standard _ ?_ _ [] (List.append_nil _).symm
  refine forall_split_cons ?_ (forall_split_cons ?_ forall_split_nil)
  · refine ⟨fun symbol h => absurd h List.not_mem_nil, fun intent h => ?_⟩
    cases h
  · refine ⟨fun symbol h _ => ?_, fun _ _ _ => rfl⟩
    obtain rfl := List.mem_singleton.mp h
    exact ⟨by decide +kernel, rfl⟩

/-- The warm cache fails when an intent starts to track the symbol: the tier is set, the intent is
not recorded, and the next change of regime takes the tier away. -/
theorem lost_intent_overridden : ¬ ∀ calls : List (PriorityCall × PriorityEnv),
    ∀ pre post, calls = pre ++ post → (priorityRun .standard pre).Kept := by
  intro h
  have hkept := h [(.onTraderIntent ⟨ethSymbol, .p1⟩, ⟨fun _ => false, fun _ => true, fun _ => 7⟩),
    (.onRegimeChange ⟨.sideways, .trending, 8⟩, allOk)] _ [] (List.append_nil _).symm
  exact absurd (hkept.authoritative "ETH" .p1 (by decide +kernel)) (by decide +kernel)

end Hedge.Ai
