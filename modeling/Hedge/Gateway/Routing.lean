import Hedge.Common.Subject
import Hedge.Gateway.Events

/-!
# The routing tables

Reference: `hedge-ui-gateway/src/channels.rs`, `hedge-ui-gateway/src/alerts.rs`, the subscriptions
of `main` in `hedge-ui-gateway/src/main.rs`.

Three tables speak of subjects: the patterns the gateway subscribes to, the channels that show a
subject, and the severity of the subjects that are alerts. The first two agree. Three of the
subjects that are alerts are under no subscription.
-/

namespace Hedge.Gateway

open Hedge.Common

/-- `Channel::ALL`. -/
def Channel.all : List Channel :=
  [market, orderflow, signals, risk, exec, news, psych, alerts, replay, latency, control]

/-- `nats_patterns`. -/
def natsPatterns : Channel → List String
  | .market => ["md.tick.>", "md.book.>", "md.oi.>", "md.connection.>", "md.breadth.sector",
      "md.breadth.volatility"]
  | .orderflow => ["of.event.>", "of.heatmap.>"]
  | .signals => ["sig.emitted", "ai.rank.>"]
  | .risk => ["risk.decision.approved", "risk.decision.rejected", "risk.killswitch.activated",
      "risk.target.reached", "risk.cooldown.>", "pos.update.>", "pos.risk_state"]
  | .exec => ["exec.order.>", "exec.fill.>", "exec.broker.failover", "exec.trade.closed"]
  | .news => ["ai.news.impact.>"]
  | .psych => ["ai.psych.stability", "ai.psych.intervention"]
  | .alerts => []
  | .replay => ["ops.action.replay"]
  | .latency => ["obs.latency.>", "obs.budget.breach.>"]
  | .control => []

/-- The subscriptions `spawn_nats_to_broadcast` makes. -/
def subscriptions : List String := Channel.all.flatMap natsPatterns

/-- The tables agree on a subject: it is shown on the channels that subscribe to it, it is received
once, and it is received if it is an alert. -/
structure RoutingAgrees (subject : String) : Prop where
  classified : ∀ channel, ∀ pattern ∈ natsPatterns channel,
    subjectMatches pattern subject = true → channel ∈ classifySubject subject
  once : (subscriptions.filter (subjectMatches · subject)).length ≤ 1
  raised : severityForSubject subject ≠ none →
    ∃ channel, ∃ pattern ∈ natsPatterns channel, subjectMatches pattern subject = true

/-! ## Channels -/

/-- The channels of a subject by its tokens. -/
def classifyTokens : List String → List Channel
  | "md" :: _ => [.market]
  | "of" :: _ => [.orderflow]
  | "sig" :: _ => [.signals]
  | "ai" :: "rank" :: _ => [.signals]
  | "ai" :: "news" :: "impact" :: _ => [.news]
  | "ai" :: "psych" :: _ => [.psych]
  | "risk" :: _ => [.risk]
  | "pos" :: _ => [.risk]
  | "exec" :: _ => [.exec]
  | "obs" :: "latency" :: _ => [.latency]
  | "obs" :: "budget" :: "breach" :: _ => [.latency]
  | "ops" :: "action" :: "replay" :: _ => [.replay]
  | _ => []

/-- The two subjects with a branch of their own are under `md` as well. -/
theorem classifySubject_eq (subject : String) :
    classifySubject subject = classifyTokens (tokensOf subject) := by
  unfold classifySubject
  split_ifs with h
  · rcases h with rfl | rfl <;> decide
  · rfl

/-- The patterns of a channel, in tokens. -/
def natsTokens : Channel → List (List String)
  | .market => [["md", "tick", ">"], ["md", "book", ">"], ["md", "oi", ">"],
      ["md", "connection", ">"], ["md", "breadth", "sector"], ["md", "breadth", "volatility"]]
  | .orderflow => [["of", "event", ">"], ["of", "heatmap", ">"]]
  | .signals => [["sig", "emitted"], ["ai", "rank", ">"]]
  | .risk => [["risk", "decision", "approved"], ["risk", "decision", "rejected"],
      ["risk", "killswitch", "activated"], ["risk", "target", "reached"], ["risk", "cooldown", ">"],
      ["pos", "update", ">"], ["pos", "risk_state"]]
  | .exec => [["exec", "order", ">"], ["exec", "fill", ">"], ["exec", "broker", "failover"],
      ["exec", "trade", "closed"]]
  | .news => [["ai", "news", "impact", ">"]]
  | .psych => [["ai", "psych", "stability"], ["ai", "psych", "intervention"]]
  | .alerts => []
  | .replay => [["ops", "action", "replay"]]
  | .latency => [["obs", "latency", ">"], ["obs", "budget", "breach", ">"]]
  | .control => []

theorem map_tokensOf_natsPatterns (channel : Channel) :
    (natsPatterns channel).map tokensOf = natsTokens channel := by
  cases channel <;> decide +kernel

/-- The subscriptions, in tokens. -/
theorem map_tokensOf_subscriptions :
    subscriptions.map tokensOf = Channel.all.flatMap natsTokens := by
  rw [subscriptions, List.map_flatMap]
  simp only [map_tokensOf_natsPatterns]

theorem subscriptions_apart :
    subscriptions.Pairwise fun p q => tokensApart (tokensOf p) (tokensOf q) = true := by
  have htokens : (subscriptions.map tokensOf).Pairwise fun ts us => tokensApart ts us = true := by
    rw [map_tokensOf_subscriptions]
    decide +kernel
  exact List.pairwise_map.mp htokens

/-- A subject whose tokens match those of no pattern is not subscribed to. -/
theorem not_subscribed_of_tokens {subject : String}
    (h : ∀ ts ∈ Channel.all.flatMap natsTokens, tokensMatch ts (tokensOf subject) = false) :
    ∀ pattern ∈ subscriptions, subjectMatches pattern subject = false := by
  rw [← map_tokensOf_subscriptions] at h
  exact List.forall_mem_map.mp h

theorem Channel.mem_all (channel : Channel) : channel ∈ Channel.all := by
  cases channel <;> decide

/-- The tokens before the `>` of a pattern tell its channel. -/
theorem classifyTokens_literalPart : ∀ channel ∈ Channel.all, ∀ pattern ∈ natsPatterns channel,
    "*" ∉ tokensOf pattern ∧ classifyTokens (literalPart (tokensOf pattern)) = [channel] := by
  intro channel _ pattern hpattern
  have htokens : ∀ ts ∈ natsTokens channel,
      "*" ∉ ts ∧ classifyTokens (literalPart ts) = [channel] := by
    cases channel <;> decide +kernel
  refine htokens (tokensOf pattern) ?_
  rw [← map_tokensOf_natsPatterns]
  exact List.mem_map_of_mem hpattern

/-- What is shown for some tokens is shown for all that start with them. -/
theorem classifyTokens_append {ts : List String} (h : classifyTokens ts ≠ []) (rest : List String) :
    classifyTokens (ts ++ rest) = classifyTokens ts := by
  revert h
  unfold classifyTokens
  split
  all_goals first
    | exact fun _ => rfl
    | exact fun h => absurd rfl h

/-- A subject is shown on the channel of a pattern it matches. -/
theorem mem_classifySubject {channel : Channel} {pattern subject : String}
    (hpattern : pattern ∈ natsPatterns channel) (hmatch : subjectMatches pattern subject = true) :
    channel ∈ classifySubject subject := by
  obtain ⟨hstar, hliteral⟩ := classifyTokens_literalPart channel channel.mem_all pattern hpattern
  obtain ⟨rest, hrest⟩ := exists_eq_literalPart_append hstar hmatch
  have hne : classifyTokens (literalPart (tokensOf pattern)) ≠ [] := by
    rw [hliteral]
    exact List.cons_ne_nil _ _
  rw [classifySubject_eq, hrest, classifyTokens_append hne, hliteral]
  exact List.mem_singleton_self _

/-! ## Alerts -/

/-- A pattern of a channel is subscribed to. -/
theorem mem_subscriptions {channel : Channel} {pattern : String}
    (h : pattern ∈ natsPatterns channel) : pattern ∈ subscriptions :=
  List.mem_flatMap.mpr ⟨channel, channel.mem_all, h⟩

/-- A text that starts with some tokens and a dot has these tokens and more. -/
theorem tokensOf_of_startsWith {subject : String} (start : String)
    (h : startsWith subject (start ++ ".") = true) :
    ∃ t ts, tokensOf subject = tokensOf start ++ t :: ts := by
  obtain ⟨rest, hrest⟩ := List.isPrefixOf_iff_prefix.mp h
  have hsubject : subject = start ++ "." ++ String.ofList rest := by
    apply String.toList_injective
    rw [String.toList_append, String.toList_ofList]
    exact hrest.symm
  obtain ⟨t, ts, hts⟩ := List.exists_cons_of_ne_nil (tokensOf_ne_nil (String.ofList rest))
  exact ⟨t, ts, by rw [hsubject, tokensOf_append_dot, hts]⟩

/-- No subject under `obs.error` is subscribed to. -/
theorem not_subscribed_obs_error {subject : String} (h : startsWith subject "obs.error." = true)
    {pattern : String} (hpattern : pattern ∈ subscriptions) :
    subjectMatches pattern subject = false := by
  obtain ⟨t, ts, hts⟩ := tokensOf_of_startsWith "obs.error" h
  have htokens : ∀ ts ∈ subscriptions.map tokensOf,
      tokensApart ["obs", "error", ">"] ts = true := by
    rw [map_tokensOf_subscriptions]
    decide +kernel
  have hapart := List.forall_mem_map.mp htokens
  refine not_tokensMatch_of_tokensApart (hapart pattern hpattern) ?_
  rw [hts]
  rfl

/-- The subjects that are alerts and under no subscription. -/
def Unraised (subject : String) : Prop :=
  subject = "ai.ollama.degraded" ∨ subject = "ai.gov.action" ∨
    startsWith subject "obs.error." = true

/-- Every other alert is received. -/
theorem exists_subscription_of_severity {subject : String} (h : severityForSubject subject ≠ none)
    (hraised : ¬ Unraised subject) :
    ∃ channel, ∃ pattern ∈ natsPatterns channel, subjectMatches pattern subject = true := by
  simp only [Unraised, not_or] at hraised
  obtain ⟨hollama, hgov, herror⟩ := hraised
  unfold severityForSubject at h
  split_ifs at h with h₁ h₂ h₃ h₄ h₅ h₆
  · exact ⟨.risk, "risk.killswitch.activated", by decide, by rw [h₁]; decide⟩
  · exact ⟨.risk, "risk.target.reached", by decide, by rw [h₂]; decide⟩
  · have hfailover := h₃.resolve_right hollama
    exact ⟨.exec, "exec.broker.failover", by decide, by rw [hfailover]; decide⟩
  · obtain ⟨t, ts, hts⟩ := tokensOf_of_startsWith "obs.budget.breach" h₄
    exact ⟨.latency, "obs.budget.breach.>", by decide, by rw [subjectMatches, hts]; rfl⟩
  · have hpsych := h₅.resolve_left hgov
    exact ⟨.psych, "ai.psych.intervention", by decide, by rw [hpsych]; decide⟩
  · obtain ⟨t, ts, hts⟩ := tokensOf_of_startsWith "md.connection" h₆
    exact ⟨.market, "md.connection.>", by decide, by rw [subjectMatches, hts]; rfl⟩
  · exact absurd rfl h

/-- An alert that is not raised is an alert, and no subscription receives it. -/
theorem unraised_spec {subject : String} (h : Unraised subject) :
    severityForSubject subject ≠ none ∧
      ∀ pattern ∈ subscriptions, subjectMatches pattern subject = false := by
  rcases h with rfl | rfl | herror
  · exact ⟨by decide +kernel, not_subscribed_of_tokens (by decide +kernel)⟩
  · exact ⟨by decide +kernel, not_subscribed_of_tokens (by decide +kernel)⟩
  · refine ⟨?_, fun _ hpattern => not_subscribed_obs_error herror hpattern⟩
    unfold severityForSubject
    split_ifs <;> exact Option.some_ne_none _

theorem not_routingAgrees_of_unraised {subject : String} (h : Unraised subject) :
    ¬ RoutingAgrees subject := by
  intro hagrees
  obtain ⟨hseverity, hnone⟩ := unraised_spec h
  obtain ⟨channel, pattern, hpattern, hmatch⟩ := hagrees.raised hseverity
  rw [hnone pattern (mem_subscriptions hpattern)] at hmatch
  cases hmatch

/-- For every subject: the tables agree exactly if it is not one of the alerts under no
subscription. -/
theorem routing_agrees_iff (subject : String) : RoutingAgrees subject ↔ ¬ Unraised subject := by
  constructor
  · exact fun hagrees hunraised => not_routingAgrees_of_unraised hunraised hagrees
  · intro hraised
    exact ⟨fun _ _ hpattern hmatch => mem_classifySubject hpattern hmatch,
      length_filter_subjectMatches_le subscriptions_apart subject,
      fun hseverity => exists_subscription_of_severity hseverity hraised⟩

/-- An error report is ranked as an alert that the gateway never receives. -/
theorem error_reports_unraised :
    (∀ token ∈ tokensOf "obs.error.market_data", token ≠ "") ∧
      ¬ RoutingAgrees "obs.error.market_data" := by
  refine ⟨by decide, not_routingAgrees_of_unraised ?_⟩
  exact .inr (.inr (by decide))

end Hedge.Gateway
