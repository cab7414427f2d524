import Hedge.Ai.Regime
import Hedge.Common.FifoMap
import Mathlib.Algebra.Order.AbsoluteValue.Basic

/-!
# The symbol priority engine

Reference: `hedge_warm_ai/priority/{engine,policy}.py` and the schemas of its inputs.

Each tracked symbol has a tier and the inputs it follows from. A recompute sets the tier first and
publishes the change after it, and an intent for an unknown symbol is recorded only once the symbol
is tracked, so a failure on the way loses an event or an intent. `Recomputed` and `Told` say what
any number of recomputes do to the tiers and to the events.
-/

namespace Hedge.Ai

open Hedge.Common

/-! ## The default policy -/

/-- `PriorityTier`. -/
inductive PriorityTier where
  | p1
  | p2
  | p3
  | p4
deriving DecidableEq, Repr

/-- `_TIER_INDEX`. -/
def PriorityTier.index : PriorityTier → ℕ
  | p1 => 0
  | p2 => 1
  | p3 => 2
  | p4 => 3

/-- `_TIER_ORDER`, clamped. -/
def PriorityTier.ofIndex : ℕ → PriorityTier
  | 0 => p1
  | 1 => p2
  | 2 => p3
  | _ => p4

/-- `_bump_up`. -/
def bumpUp (tier : PriorityTier) (steps : ℕ) : PriorityTier := .ofIndex (tier.index - steps)

/-- `_bump_down`. -/
def bumpDown (tier : PriorityTier) (steps : ℕ) : PriorityTier :=
  .ofIndex (min 3 (tier.index + steps))

/-- A symbol as the schemas of the inputs allow it. -/
structure ValidSymbol where
  name : String
  min_length : 1 ≤ name.length
  max_length : name.length ≤ 32

/-- `TraderIntentPriority`: the symbol and its new tier. -/
structure TraderIntentPriority where
  symbol : ValidSymbol
  to_ : PriorityTier

/-- `NewsImpact`: what the policy reads of it. -/
structure NewsImpact where
  symbol : ValidSymbol
  sentiment : ℚ
  impactMagnitude : ℚ

/-- `PriorityInputs`. -/
structure PriorityInputs where
  traderIntent : Option TraderIntentPriority
  regime : Option Regime
  news : Option NewsImpact
  baseline : PriorityTier

/-- `DefaultPriorityPolicy`. -/
structure DefaultPriorityPolicy where
  regimeBumps : Regime → ℤ
  newsImpactThreshold : ℚ
  newsSentimentThreshold : ℚ

namespace DefaultPriorityPolicy

/-- The defaults of its fields. -/
def standard : DefaultPriorityPolicy where
  regimeBumps
    | .panic => 2
    | .highVolatility => 1
    | .newsDriven => 1
    | .liquidityCrisis => 2
    | .trending => 0
    | .sideways => 0
    | .lowParticipation => -1
  newsImpactThreshold := 1 / 2
  newsSentimentThreshold := 7 / 10

/-- `_apply_steps`. -/
def applySteps (tier : PriorityTier) (steps : ℤ) : PriorityTier :=
  if 0 < steps then bumpUp tier steps.toNat
  else if steps < 0 then bumpDown tier (-steps).toNat
  else tier

/-- The news adjustment: one tier up, whichever threshold is reached. -/
def applyNews (policy : DefaultPriorityPolicy) (symbol : String) (news : Option NewsImpact)
    (tier : PriorityTier) : PriorityTier :=
  match news with
  | some impact =>
    if impact.symbol.name = symbol ∧ (policy.newsImpactThreshold ≤ impact.impactMagnitude ∨
        policy.newsSentimentThreshold ≤ |impact.sentiment|) then bumpUp tier 1
    else tier
  | none => tier

/-- Steps 2 to 4 of `assign`: the baseline, with the adjustments of the regime and of the news. -/
def recommend (policy : DefaultPriorityPolicy) (symbol : String) (inputs : PriorityInputs) :
    PriorityTier :=
  policy.applyNews symbol inputs.news
    (applySteps inputs.baseline ((inputs.regime.map policy.regimeBumps).getD 0))

/-- `assign`. -/
def assign (policy : DefaultPriorityPolicy) (symbol : String) (inputs : PriorityInputs) :
    PriorityTier :=
  match inputs.traderIntent with
  | some intent =>
    if intent.symbol.name = symbol then intent.to_ else policy.recommend symbol inputs
  | none => policy.recommend symbol inputs

end DefaultPriorityPolicy

/-! ## The engine -/

/-- `_SymbolState`. -/
structure SymbolState where
  lastNews : Option NewsImpact
  lastTrader : Option TraderIntentPriority
  baseline : PriorityTier

/-- `PriorityChanged`. -/
structure PriorityChanged where
  symbol : String
  from_ : PriorityTier
  to_ : PriorityTier
  tsNs : ℕ
deriving DecidableEq

/-- The two maps in the order of their keys, the regime, and the events published. -/
structure PriorityState where
  tiers : FifoMap String PriorityTier
  states : FifoMap String SymbolState
  regime : Option Regime
  published : List PriorityChanged

/-- A fresh engine. -/
def PriorityState.init : PriorityState := ⟨.empty, .empty, none, []⟩

/-- How the warm cache and the publisher answer a call for a symbol, and the clock. Without a warm
cache every `put` succeeds. -/
structure PriorityEnv where
  putOk : String → Bool
  publishOk : String → Bool
  clockNs : String → ℕ

/-- What a call can raise. -/
inductive PriorityError where
  | emptySymbol
  | unknownSymbol
  | cachePut
  | eventValidation
  | publish
deriving DecidableEq, Repr

namespace PriorityState

/-- The tier of a symbol. -/
def tier? (s : PriorityState) (symbol : String) : Option PriorityTier := s.tiers.map.lookup symbol

/-- The inputs of a symbol, besides the regime. -/
def state? (s : PriorityState) (symbol : String) : Option SymbolState := s.states.map.lookup symbol

/-- The tier that the policy gives to a symbol. -/
def assigned (policy : DefaultPriorityPolicy) (s : PriorityState) (symbol : String)
    (st : SymbolState) : PriorityTier :=
  policy.assign symbol ⟨st.lastTrader, s.regime, st.lastNews, st.baseline⟩

/-- `track`. -/
def track (env : PriorityEnv) (s : PriorityState) (symbol : String)
    (initialTier baseline : Option PriorityTier) :
    Except PriorityError PriorityTier × PriorityState :=
  if symbol = "" then (.error .emptySymbol, s)
  else match s.tier? symbol with
    | some tier => (.ok tier, s)
    | none =>
      let chosenBaseline := baseline.getD .p3
      let chosenTier := initialTier.getD chosenBaseline
      let s := { s with
        tiers := s.tiers.put symbol chosenTier
        states := s.states.put symbol ⟨none, none, chosenBaseline⟩ }
      if env.putOk symbol then (.ok chosenTier, s) else (.error .cachePut, s)

/-- `untrack`. -/
def untrack (s : PriorityState) (symbol : String) : PriorityState :=
  { s with tiers := s.tiers.remove symbol, states := s.states.remove symbol }

/-- `PriorityChanged.model_validate`, as far as it depends on the symbol. -/
def validEvent (symbol : String) : Bool := 1 ≤ symbol.length && symbol.length ≤ 32

/-- `_recompute_and_emit`. A failed `put` is logged and dropped. -/
def recomputeAndEmit (policy : DefaultPriorityPolicy) (env : PriorityEnv) (s : PriorityState)
    (symbol : String) : Except PriorityError Unit × PriorityState :=
  match s.tier? symbol, s.state? symbol with
  | some prior, some st =>
    let newTier := s.assigned policy symbol st
    if newTier = prior then (.ok (), s)
    else
      let s := { s with tiers := s.tiers.put symbol newTier }
      if validEvent symbol = false then (.error .eventValidation, s)
      else if env.publishOk symbol then
        (.ok (), { s with
          published := s.published ++ [⟨symbol, prior, newTier, env.clockNs symbol⟩] })
      else (.error .publish, s)
  | _, _ => (.error .unknownSymbol, s)

/-- A loop over symbols that ends with the first one to raise. -/
def recomputeEach (policy : DefaultPriorityPolicy) (env : PriorityEnv) (s : PriorityState) :
    List String → Except PriorityError Unit × PriorityState
  | [] => (.ok (), s)
  | symbol :: symbols =>
    match s.recomputeAndEmit policy env symbol with
    | (.ok _, s) => recomputeEach policy env s symbols
    | (.error e, s) => (.error e, s)

/-- `self._states[symbol].last_trader = intent`. -/
def recordTrader (s : PriorityState) (intent : TraderIntentPriority) :
    Except PriorityError Unit × PriorityState :=
  match s.state? intent.symbol.name with
  | some st => (.ok (),
      { s with states := s.states.put intent.symbol.name { st with lastTrader := some intent } })
  | none => (.error .unknownSymbol, s)

/-- `self._states[symbol].last_news = impact`. -/
def recordNews (s : PriorityState) (impact : NewsImpact) :
    Except PriorityError Unit × PriorityState :=
  match s.state? impact.symbol.name with
  | some st => (.ok (),
      { s with states := s.states.put impact.symbol.name { st with lastNews := some impact } })
  | none => (.error .unknownSymbol, s)

/-- Go on unless the first part raised. -/
def andThen {α β : Type} (r : Except PriorityError α × PriorityState)
    (next : PriorityState → Except PriorityError β × PriorityState) :
    Except PriorityError β × PriorityState :=
  match r with
  | (.ok _, s) => next s
  | (.error e, s) => (.error e, s)

/-- `on_trader_intent`. -/
def onTraderIntent (policy : DefaultPriorityPolicy) (env : PriorityEnv) (s : PriorityState)
    (intent : TraderIntentPriority) : Except PriorityError Unit × PriorityState :=
  if s.tier? intent.symbol.name = none then
    andThen (s.track env intent.symbol.name (some intent.to_) none) fun s => s.recordTrader intent
  else
    andThen (s.recordTrader intent) fun s => s.recomputeAndEmit policy env intent.symbol.name

/-- `on_regime_change`. -/
def onRegimeChange (policy : DefaultPriorityPolicy) (env : PriorityEnv) (s : PriorityState)
    (change : RegimeChanged) : Except PriorityError Unit × PriorityState :=
  { s with regime := some change.to_ }.recomputeEach policy env s.tiers.order

/-- `on_news_impact`. -/
def onNewsImpact (policy : DefaultPriorityPolicy) (env : PriorityEnv) (s : PriorityState)
    (impact : NewsImpact) : Except PriorityError Unit × PriorityState :=
  if s.tier? impact.symbol.name = none then (.ok (), s)
  else andThen (s.recordNews impact) fun s => s.recomputeAndEmit policy env impact.symbol.name

/-- `recompute_all`. -/
def recomputeAll (policy : DefaultPriorityPolicy) (env : PriorityEnv) (s : PriorityState) :
    Except PriorityError Unit × PriorityState :=
  s.recomputeEach policy env s.tiers.order

end PriorityState

/-- A call on the engine. -/
inductive PriorityCall where
  | track (symbol : String) (initialTier baseline : Option PriorityTier)
  | untrack (symbol : String)
  | onTraderIntent (intent : TraderIntentPriority)
  | onRegimeChange (change : RegimeChanged)
  | onNewsImpact (impact : NewsImpact)
  | recomputeAll

/-- What a call raises, and the state it leaves. -/
def outcome {α : Type} (r : Except PriorityError α × PriorityState) :
    Option PriorityError × PriorityState :=
  match r with
  | (.ok _, s) => (none, s)
  | (.error e, s) => (some e, s)

/-- One call; what it raises does not keep the caller from the next one. -/
def PriorityState.step (policy : DefaultPriorityPolicy) (s : PriorityState)
    (call : PriorityCall × PriorityEnv) : Option PriorityError × PriorityState :=
  match call.1 with
  | .track symbol initialTier baseline => outcome (s.track call.2 symbol initialTier baseline)
  | .untrack symbol => (none, s.untrack symbol)
  | .onTraderIntent intent => outcome (s.onTraderIntent policy call.2 intent)
  | .onRegimeChange change => outcome (s.onRegimeChange policy call.2 change)
  | .onNewsImpact impact => outcome (s.onNewsImpact policy call.2 impact)
  | .recomputeAll => outcome (s.recomputeAll policy call.2)

/-! ## Chains of events -/

/-- The events lead from one tier to another, each going on where the one before ended. -/
def Unbroken : PriorityTier → List PriorityChanged → PriorityTier → Prop
  | first, [], last => first = last
  | first, event :: events, last => event.from_ = first ∧ Unbroken event.to_ events last

/-- The events of one symbol. -/
def eventsOf (symbol : String) (events : List PriorityChanged) : List PriorityChanged :=
  events.filter fun event => event.symbol = symbol

theorem Unbroken.append {first mid last : PriorityTier} {events more : List PriorityChanged}
    (h : Unbroken first events mid) (hmore : Unbroken mid more last) :
    Unbroken first (events ++ more) last := by
  induction events generalizing first with
  | nil =>
    obtain rfl : first = mid := h
    exact hmore
  | cons event events ih => exact ⟨h.1, ih h.2⟩

/-- The events published between two states lead from the tiers of the one to those of the other. -/
def Told (s s' : PriorityState) : Prop :=
  ∃ events, s'.published = s.published ++ events ∧ ∀ symbol tier, s.tier? symbol = some tier →
    ∃ tier', s'.tier? symbol = some tier' ∧ Unbroken tier (eventsOf symbol events) tier'

theorem Told.refl (s : PriorityState) : Told s s :=
  ⟨[], (List.append_nil _).symm, fun _ tier h => ⟨tier, h, rfl⟩⟩

theorem Told.trans {s t u : PriorityState} (hst : Told s t) (htu : Told t u) : Told s u := by
  obtain ⟨events, hpub, htell⟩ := hst
  obtain ⟨more, hpub', htell'⟩ := htu
  refine ⟨events ++ more, by rw [hpub', hpub, List.append_assoc], fun symbol tier htier => ?_⟩
  obtain ⟨mid, hmid, hchain⟩ := htell symbol tier htier
  obtain ⟨last, hlast, hchain'⟩ := htell' symbol mid hmid
  refine ⟨last, hlast, ?_⟩
  rw [eventsOf, List.filter_append]
  exact hchain.append hchain'

/-! ## Recomputing -/

/-- The tier the policy gives to a tracked symbol is not the one it has. -/
def PriorityState.Changes (policy : DefaultPriorityPolicy) (s : PriorityState) (symbol : String) :
    Prop :=
  ∃ tier st, s.tier? symbol = some tier ∧ s.state? symbol = some st ∧
    s.assigned policy symbol st ≠ tier

/-- An event about the symbol is valid and the publisher takes it. -/
def PriorityEnv.Announces (env : PriorityEnv) (symbol : String) : Prop :=
  PriorityState.validEvent symbol = true ∧ env.publishOk symbol = true

/-- Between two states tiers were recomputed, and nothing else happened to the inputs. -/
structure Recomputed (policy : DefaultPriorityPolicy) (s s' : PriorityState) : Prop where
  states : s'.states = s.states
  regime : s'.regime = s.regime
  tier : ∀ symbol, s'.tier? symbol = s.tier? symbol ∨ (s.tier? symbol).isSome = true ∧
    ∃ st, s.state? symbol = some st ∧ s'.tier? symbol = some (s.assigned policy symbol st)

section Recompute

variable {policy : DefaultPriorityPolicy} {env : PriorityEnv} {s t u : PriorityState}

theorem Recomputed.refl (policy : DefaultPriorityPolicy) (s : PriorityState) :
    Recomputed policy s s := ⟨rfl, rfl, fun _ => .inl rfl⟩

theorem Recomputed.assigned (h : Recomputed policy s t) (symbol : String) (st : SymbolState) :
    t.assigned policy symbol st = s.assigned policy symbol st := by
  rw [PriorityState.assigned, PriorityState.assigned, h.regime]

theorem Recomputed.state? (h : Recomputed policy s t) (symbol : String) :
    t.state? symbol = s.state? symbol := by
  rw [PriorityState.state?, PriorityState.state?, h.states]

theorem Recomputed.isSome (h : Recomputed policy s t) (symbol : String) :
    (t.tier? symbol).isSome = (s.tier? symbol).isSome := by
  rcases h.tier symbol with heq | ⟨hsome, st, -, heq⟩
  · rw [heq]
  · rw [heq, hsome]
    rfl

theorem Recomputed.trans (hst : Recomputed policy s t) (htu : Recomputed policy t u) :
    Recomputed policy s u := by
  refine ⟨htu.states.trans hst.states, htu.regime.trans hst.regime, fun symbol => ?_⟩
  rcases htu.tier symbol with heq | ⟨hsome, st, hstate, heq⟩
  · rw [heq]
    exact hst.tier symbol
  · rw [hst.isSome] at hsome
    rw [hst.state?] at hstate
    rw [hst.assigned] at heq
    exact .inr ⟨hsome, st, hstate, heq⟩

/-- A symbol that is due for a change after a recompute was due for it before. -/
theorem Recomputed.changes (h : Recomputed policy s t) {symbol : String}
    (hchanges : t.Changes policy symbol) : s.Changes policy symbol := by
  obtain ⟨tier, st, htier, hst, hne⟩ := hchanges
  rw [h.state?] at hst
  rw [h.assigned] at hne
  rcases h.tier symbol with heq | ⟨-, st', hst', heq⟩
  · exact ⟨tier, st, heq ▸ htier, hst, hne⟩
  · rw [hst] at hst'
    cases hst'
    rw [heq] at htier
    exact absurd (Option.some.inj htier) hne

/-- **What one recompute does**: the symbol gets its assigned tier, everything else stays. -/
theorem recomputed_recomputeAndEmit (policy : DefaultPriorityPolicy) (env : PriorityEnv)
    (s : PriorityState) (symbol : String) :
    Recomputed policy s (s.recomputeAndEmit policy env symbol).2 := by
  rw [PriorityState.recomputeAndEmit]
  split
  · rename_i prior st htier hst
    have hput : ∀ sym, (s.tiers.put symbol (s.assigned policy symbol st)).map.lookup sym
        = s.tier? sym ∨ (s.tier? sym).isSome = true ∧ ∃ st', s.state? sym = some st' ∧
          (s.tiers.put symbol (s.assigned policy symbol st)).map.lookup sym
            = some (s.assigned policy sym st') := by
      intro sym
      by_cases hsym : sym = symbol
      · subst hsym
        refine .inr ⟨by rw [htier]; rfl, st, hst, ?_⟩
        rw [FifoMap.lookup_put_self]
      · exact .inl (FifoMap.lookup_put_ne hsym _)
    dsimp only
    split_ifs
    · exact .refl policy s
    · exact ⟨rfl, rfl, hput⟩
    · exact ⟨rfl, rfl, hput⟩
    · exact ⟨rfl, rfl, hput⟩
  · exact .refl policy s

/-- A tracked symbol gets its assigned tier, even when the recompute raises. -/
theorem tier?_recomputeAndEmit {symbol : String} {tier : PriorityTier} {st : SymbolState}
    (htier : s.tier? symbol = some tier) (hst : s.state? symbol = some st) :
    (s.recomputeAndEmit policy env symbol).2.tier? symbol =
      some (s.assigned policy symbol st) := by
  rw [PriorityState.recomputeAndEmit, htier, hst]
  dsimp only
  split_ifs with hsame
  · rw [htier, hsame]
  · exact FifoMap.lookup_put_self _ _
  · exact FifoMap.lookup_put_self _ _
  · exact FifoMap.lookup_put_self _ _

/-- A change of tier that the publisher takes is told. -/
theorem told_recomputeAndEmit {symbol : String}
    (h : s.Changes policy symbol → env.Announces symbol) :
    Told s (s.recomputeAndEmit policy env symbol).2 := by
  rw [PriorityState.recomputeAndEmit]
  split
  · rename_i prior st htier hst
    dsimp only
    by_cases hsame : s.assigned policy symbol st = prior
    · rw [if_pos hsame]
      exact .refl s
    · obtain ⟨hvalid, hpub⟩ := h ⟨prior, st, htier, hst, hsame⟩
      rw [if_neg hsame, hvalid, if_neg (by simp), hpub, if_pos rfl]
      refine ⟨[_], rfl, fun sym tier hsym => ?_⟩
      by_cases hcase : sym = symbol
      · subst hcase
        rw [htier] at hsym
        cases hsym
        refine ⟨_, FifoMap.lookup_put_self _ _, ?_⟩
        rw [eventsOf, List.filter_cons_of_pos (by simp)]
        exact ⟨rfl, rfl⟩
      · refine ⟨tier, (FifoMap.lookup_put_ne hcase _).trans hsym, ?_⟩
        rw [eventsOf, List.filter_cons_of_neg (by simpa using Ne.symm hcase)]
        rfl
  · exact .refl s

theorem recomputed_recomputeEach (policy : DefaultPriorityPolicy) (env : PriorityEnv)
    (symbols : List String) (s : PriorityState) :
    Recomputed policy s (s.recomputeEach policy env symbols).2 := by
  induction symbols generalizing s with
  | nil => exact .refl policy s
  | cons symbol symbols ih =>
    have hone := recomputed_recomputeAndEmit policy env s symbol
    rw [PriorityState.recomputeEach]
    split
    · rename_i s' heq
      rw [heq] at hone
      exact hone.trans (ih s')
    · rename_i e s' heq
      rw [heq] at hone
      exact hone

theorem told_recomputeEach {symbols : List String}
    (h : ∀ symbol ∈ symbols, s.Changes policy symbol → env.Announces symbol) :
    Told s (s.recomputeEach policy env symbols).2 := by
  induction symbols generalizing s with
  | nil => exact .refl s
  | cons symbol symbols ih =>
    have hone := recomputed_recomputeAndEmit policy env s symbol
    have htold := told_recomputeAndEmit (h symbol List.mem_cons_self)
    rw [PriorityState.recomputeEach]
    split
    · rename_i s' heq
      rw [heq] at hone htold
      refine htold.trans (ih fun sym hsym hchanges => ?_)
      exact h sym (List.mem_cons_of_mem _ hsym) (hone.changes hchanges)
    · rename_i e s' heq
      rw [heq] at htold
      exact htold

end Recompute

/-! ## The symbols of the two maps -/

/-- The two maps have the same symbols. -/
def PriorityState.Total (s : PriorityState) : Prop :=
  ∀ symbol, (s.tier? symbol).isSome = (s.state? symbol).isSome

section Total

variable {policy : DefaultPriorityPolicy} {env : PriorityEnv} {s t : PriorityState}

theorem Recomputed.total (h : Recomputed policy s t) (hs : s.Total) : t.Total := by
  intro symbol
  rw [h.isSome, h.state?]
  exact hs symbol

/-- Writing the inputs of a symbol that has some keeps its place in both maps. -/
theorem PriorityState.Total.write {symbol : String} {st : SymbolState} (hs : s.Total)
    (hst : s.state? symbol = some st) (st' : SymbolState) :
    PriorityState.Total { s with states := s.states.put symbol st' } := by
  intro sym
  show (s.tier? sym).isSome = ((s.states.put symbol st').map.lookup sym).isSome
  rw [hs sym]
  by_cases hsym : sym = symbol
  · subst hsym
    rw [FifoMap.lookup_put_self, hst]
    rfl
  · rw [FifoMap.lookup_put_ne hsym]
    rfl

theorem PriorityState.Total.track (hs : s.Total) (env : PriorityEnv) (symbol : String)
    (initialTier baseline : Option PriorityTier) :
    (s.track env symbol initialTier baseline).2.Total := by
  have hput : ∀ tier st, PriorityState.Total
      { s with tiers := s.tiers.put symbol tier, states := s.states.put symbol st } := by
    intro tier st sym
    show ((s.tiers.put symbol tier).map.lookup sym).isSome =
      ((s.states.put symbol st).map.lookup sym).isSome
    by_cases hsym : sym = symbol
    · subst hsym
      rw [FifoMap.lookup_put_self, FifoMap.lookup_put_self]
      rfl
    · rw [FifoMap.lookup_put_ne hsym, FifoMap.lookup_put_ne hsym]
      exact hs sym
  rw [PriorityState.track]
  by_cases hempty : symbol = ""
  · rw [if_pos hempty]
    exact hs
  · rw [if_neg hempty]
    split
    · exact hs
    · dsimp only
      split_ifs
      · exact hput _ _
      · exact hput _ _

theorem PriorityState.Total.untrack (hs : s.Total) (symbol : String) :
    (s.untrack symbol).Total := by
  intro sym
  show ((s.tiers.remove symbol).map.lookup sym).isSome =
    ((s.states.remove symbol).map.lookup sym).isSome
  by_cases hsym : sym = symbol
  · subst hsym
    rw [FifoMap.lookup_remove_self, FifoMap.lookup_remove_self]
    rfl
  · rw [FifoMap.lookup_remove_ne hsym, FifoMap.lookup_remove_ne hsym]
    exact hs sym

theorem PriorityState.Total.recordTrader (hs : s.Total) (intent : TraderIntentPriority) :
    (s.recordTrader intent).2.Total := by
  rw [PriorityState.recordTrader]
  split
  · exact hs.write ‹_› _
  · exact hs

theorem PriorityState.Total.recordNews (hs : s.Total) (impact : NewsImpact) :
    (s.recordNews impact).2.Total := by
  rw [PriorityState.recordNews]
  split
  · exact hs.write ‹_› _
  · exact hs

/-- Whether the first part raises or not, what both parts keep stays. -/
theorem PriorityState.andThen_keeps {α β : Type} (P : PriorityState → Prop)
    {r : Except PriorityError α × PriorityState}
    {next : PriorityState → Except PriorityError β × PriorityState} (hfirst : P r.2)
    (hnext : ∀ s, P s → P (next s).2) : P (PriorityState.andThen r next).2 := by
  obtain ⟨e | a, s⟩ := r
  · exact hfirst
  · exact hnext s hfirst

@[simp] theorem outcome_snd {α : Type} (r : Except PriorityError α × PriorityState) :
    (outcome r).2 = r.2 := by
  obtain ⟨e | a, s⟩ := r <;> rfl

/-- No call, whatever it raises, tells the two maps apart. -/
theorem PriorityState.Total.step (hs : s.Total) (call : PriorityCall × PriorityEnv) :
    (s.step policy call).2.Total := by
  obtain ⟨call, env⟩ := call
  cases call with
  | track symbol initialTier baseline =>
    show (outcome (s.track env symbol initialTier baseline)).2.Total
    rw [outcome_snd]
    exact hs.track env symbol initialTier baseline
  | untrack symbol => exact hs.untrack symbol
  | onTraderIntent intent =>
    show (outcome (s.onTraderIntent policy env intent)).2.Total
    rw [outcome_snd, PriorityState.onTraderIntent]
    split_ifs
    · exact PriorityState.andThen_keeps PriorityState.Total (hs.track _ _ _ _)
        fun s hs => hs.recordTrader intent
    · exact PriorityState.andThen_keeps PriorityState.Total (hs.recordTrader intent)
        fun s hs => (recomputed_recomputeAndEmit policy env s _).total hs
  | onRegimeChange change =>
    show (outcome (s.onRegimeChange policy env change)).2.Total
    rw [outcome_snd]
    exact (recomputed_recomputeEach policy env _ _).total hs
  | onNewsImpact impact =>
    show (outcome (s.onNewsImpact policy env impact)).2.Total
    rw [outcome_snd, PriorityState.onNewsImpact]
    split_ifs
    · exact hs
    · exact PriorityState.andThen_keeps PriorityState.Total (hs.recordNews impact)
        fun s hs => (recomputed_recomputeAndEmit policy env s _).total hs
  | recomputeAll =>
    show (outcome (s.recomputeAll policy env)).2.Total
    rw [outcome_snd]
    exact (recomputed_recomputeEach policy env _ _).total hs

end Total

end Hedge.Ai
