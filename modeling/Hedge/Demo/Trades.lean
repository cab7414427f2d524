import Hedge.Demo.Runs

/-!
# The trades of the demo

Reference: `run` and `process_signal` in `hedge-demo-synth/src/generators/trade_chain.rs`,
`hedge-demo-synth/src/generators/signal.rs`, `hedge-demo-synth/src/signal_bus.rs`.

The sleeps of the trade chain let anything come between its messages, and yet it makes one trade
after the other: `trades_in_order`. What an event puts into the channel or takes out of it, and what
it adds to the trade in hand or takes from it, is one equation each (`bus_next`, `pending_next`); a
run adds them up. No signal is skipped, taken twice or overtaken.
-/

namespace Hedge.Demo

open Hedge.Common

/-! ## Trades one after the other -/

/-- A trade of the chain, from the positions before it. -/
def makeTrade (positions : Positions) (trade : SignalEvent × TradeDraws) :
    List (String × Json) × Positions := processSignal trade.2 trade.1 positions

/-- The messages of some trades, made one after the other. -/
def messagesFrom (positions : Positions) (trades : List (SignalEvent × TradeDraws)) :
    List (String × Json) := (runOutputs makeTrade positions trades).flatten

/-- The messages of some trades from the start of the process on. -/
def madeOf (trades : List (SignalEvent × TradeDraws)) : List (String × Json) :=
  messagesFrom ∅ trades

/-- The positions after some trades. -/
def positionsAfter (trades : List (SignalEvent × TradeDraws)) : Positions :=
  runState makeTrade ∅ trades

theorem madeOf_append (trades trades' : List (SignalEvent × TradeDraws)) :
    madeOf (trades ++ trades') = madeOf trades ++ messagesFrom (positionsAfter trades) trades' := by
  rw [madeOf, messagesFrom, runOutputs_append, List.flatten_append]
  rfl

theorem positionsAfter_append (trades trades' : List (SignalEvent × TradeDraws)) :
    positionsAfter (trades ++ trades') = runState makeTrade (positionsAfter trades) trades' :=
  runState_append ∅ trades trades'

/-! ## What an event takes up -/

namespace DemoState

/-- The draws of a signal that is sent. -/
def signalSent (s : DemoState) : DemoEvent → List SignalDraws
  | .signal draws => if s.blocked then [] else if s.free "sig.emitted" then [draws] else []
  | _ => []

/-- The trade that is begun. -/
def tradeBegun (s : DemoState) : DemoEvent → List (SignalEvent × TradeDraws)
  | .trade draws => match s.pending, s.bus with
    | [], signal :: _ => [(signal, draws)]
    | _, _ => []
  | _ => []

/-- The message that the trade chain comes to, sent or not. -/
def messageReached (s : DemoState) : DemoEvent → List (String × Json)
  | .proceed => s.pending.head?.toList
  | _ => []

/-- The trade chain takes a signal only when it is through with the trade before. -/
theorem tradeBegun_trade (s : DemoState) (draws : TradeDraws) :
    s.tradeBegun (.trade draws) = [] ∧ (∀ parse, s.next parse (.trade draws) = s) ∨
      ∃ signal bus, s.pending = [] ∧ s.bus = signal :: bus ∧
        s.tradeBegun (.trade draws) = [(signal, draws)] ∧
        ∀ parse, s.next parse (.trade draws) = { s with
          bus := bus
          pending := (processSignal draws signal s.positions).1
          positions := (processSignal draws signal s.positions).2 } := by
  rcases hpending : s.pending with _ | ⟨message, pending⟩
  · rcases hbus : s.bus with _ | ⟨signal, bus⟩
    · exact .inl ⟨by simp [tradeBegun, hbus], fun parse => by simp [next, hbus]⟩
    · exact .inr ⟨signal, bus, rfl, rfl, by simp [tradeBegun, hpending, hbus],
        fun parse => by simp [next, hpending, hbus]⟩
  · exact .inl ⟨by simp [tradeBegun, hpending], fun parse => by simp [next, hpending]⟩

variable (parse : List UInt8 → Option Json) (s : DemoState) (event : DemoEvent)

/-- A signal that is sent goes to the end of the channel. -/
theorem next_signal (draws : SignalDraws) : s.next parse (.signal draws)
    = { s with bus := s.bus ++ (s.signalSent (.signal draws)).map SignalDraws.event } := by
  unfold next signalSent
  dsimp only
  split_ifs <;> simp

/-- The subscriber has no hand in the trades. -/
theorem next_message (subject : String) (payload : List UInt8) :
    ∃ registry, s.next parse (.message subject payload) = { s with registry := registry } := by
  unfold next
  dsimp only
  split_ifs
  · exact ⟨_, rfl⟩
  · exact ⟨s.registry, rfl⟩

/-- The channel gives the signals out as they came in. -/
theorem bus_next : s.bus ++ (s.signalSent event).map SignalDraws.event
    = (s.tradeBegun event).map Prod.fst ++ (s.next parse event).bus := by
  cases event with
  | signal draws =>
    rw [next_signal]
    rfl
  | trade draws =>
    rcases s.tradeBegun_trade draws with ⟨hnone, hsame⟩ | ⟨signal, bus, -, hbus, hbegun, hnext⟩
    · rw [hnone, hsame]
      exact List.append_nil _
    · rw [hbegun, hnext, hbus]
      exact List.append_nil _
  | message subject payload =>
    obtain ⟨registry, hnext⟩ := s.next_message parse subject payload
    rw [hnext]
    exact List.append_nil _
  | elapse _ | other _ _ | proceed => exact List.append_nil _

/-- What is left of a trade is reached message by message, before the next one is begun. -/
theorem pending_next : s.pending ++ messagesFrom s.positions (s.tradeBegun event)
    = s.messageReached event ++ (s.next parse event).pending := by
  cases event with
  | signal draws =>
    rw [next_signal]
    exact List.append_nil _
  | trade draws =>
    rcases s.tradeBegun_trade draws with ⟨hnone, hsame⟩ | ⟨signal, bus, hidle, -, hbegun, hnext⟩
    · rw [hnone, hsame]
      exact List.append_nil _
    · rw [hbegun, hnext, hidle]
      exact List.append_nil _
  | message subject payload =>
    obtain ⟨registry, hnext⟩ := s.next_message parse subject payload
    rw [hnext]
    exact List.append_nil _
  | proceed =>
    show s.pending ++ [] = s.pending.head?.toList ++ s.pending.tail
    rw [List.append_nil]
    cases s.pending <;> rfl
  | elapse _ | other _ _ => exact List.append_nil _

/-- Only a trade that is begun changes the positions. -/
theorem positions_next :
    (s.next parse event).positions = runState makeTrade s.positions (s.tradeBegun event) := by
  cases event with
  | signal draws =>
    rw [next_signal]
    rfl
  | trade draws =>
    rcases s.tradeBegun_trade draws with ⟨hnone, hsame⟩ | ⟨signal, bus, -, -, hbegun, hnext⟩
    · rw [hnone, hsame]
      rfl
    · rw [hbegun, hnext]
      rfl
  | message subject payload =>
    obtain ⟨registry, hnext⟩ := s.next_message parse subject payload
    rw [hnext]
    rfl
  | elapse _ | other _ _ | proceed => rfl

/-- At most one signal waits beside the ones in the channel. -/
theorem length_bus_next {s : DemoState} (h : s.bus.length ≤ busCapacity + 1) :
    (s.next parse event).bus.length ≤ busCapacity + 1 := by
  have hlength := congrArg List.length (s.bus_next parse event)
  rw [List.length_append, List.length_append, List.length_map, List.length_map] at hlength
  by_cases hblocked : s.blocked = true
  · have hnone : s.signalSent event = [] := by
      cases event with
      | signal draws => exact if_pos hblocked
      | elapse _ | message _ _ | other _ _ | trade _ | proceed => rfl
    rw [hnone, List.length_nil] at hlength
    omega
  · have hroom : s.bus.length ≤ busCapacity := by simpa [blocked] using hblocked
    have hone : (s.signalSent event).length ≤ 1 := by
      cases event with
      | signal draws =>
        unfold signalSent
        dsimp only
        split_ifs <;> simp
      | elapse _ | message _ _ | other _ _ | trade _ | proceed => exact Nat.zero_le 1
    omega

end DemoState

/-! ## What a run takes up -/

section Runs

variable (parse : List UInt8 → Option Json) (events : List DemoEvent)

/-- The draws of the signals that are sent. -/
def signalsSent : List SignalDraws :=
  runCollect (DemoState.step parse) DemoState.signalSent .init events

/-- The trades that are begun. -/
def tradesBegun : List (SignalEvent × TradeDraws) :=
  runCollect (DemoState.step parse) DemoState.tradeBegun .init events

/-- The messages that the trade chain has come to, sent or not. -/
def reached : List (String × Json) :=
  runCollect (DemoState.step parse) DemoState.messageReached .init events

/-- What has been taken up, against the state of the process. The positions are already those after
the trade in hand, which nothing reads before the next trade. -/
structure InOrder : Prop where
  signals : (signalsSent parse events).map SignalDraws.event
    = (tradesBegun parse events).map Prod.fst ++ (after parse events).bus
  messages : reached parse events ++ (after parse events).pending = madeOf (tradesBegun parse events)
  positions : (after parse events).positions = positionsAfter (tradesBegun parse events)

variable {parse events}

theorem InOrder.concat (h : InOrder parse events) (event : DemoEvent) :
    InOrder parse (events ++ [event]) := by
  have hsent : signalsSent parse (events ++ [event])
      = signalsSent parse events ++ (after parse events).signalSent event :=
    runCollect_concat DemoState.init events event
  have hbegun : tradesBegun parse (events ++ [event])
      = tradesBegun parse events ++ (after parse events).tradeBegun event :=
    runCollect_concat DemoState.init events event
  have hreached : reached parse (events ++ [event])
      = reached parse events ++ (after parse events).messageReached event :=
    runCollect_concat DemoState.init events event
  constructor
  · rw [hsent, hbegun, List.map_append, List.map_append, h.signals, List.append_assoc,
      List.append_assoc, after_concat, DemoState.bus_next]
  · rw [hreached, hbegun, List.append_assoc, after_concat, ← DemoState.pending_next,
      ← List.append_assoc, h.messages, madeOf_append, h.positions]
  · rw [hbegun, after_concat, DemoState.positions_next, positionsAfter_append, h.positions]

theorem inOrder (parse : List UInt8 → Option Json) (events : List DemoEvent) :
    InOrder parse events := by
  induction events using List.reverseRecOn with
  | nil => exact ⟨rfl, rfl, rfl⟩
  | append_singleton events event ih => exact ih.concat event

theorem length_bus_after (parse : List UInt8 → Option Json) (events : List DemoEvent) :
    (after parse events).bus.length ≤ busCapacity + 1 :=
  runState_invariant_all (DemoState.step parse) (fun s => s.bus.length ≤ busCapacity + 1)
    (fun _ event h => DemoState.length_bus_next parse event h) (Nat.zero_le _) events

/-- **One trade after the other.** In every run the trades begun are those of the signals sent, in
their order and at most 65 of them behind. The messages that the trade chain has come to are the
first ones of these trades made with nothing in between, and all of them when no trade is in hand;
the positions are then those after these trades. -/
theorem trades_in_order (parse : List UInt8 → Option Json) (events : List DemoEvent) :
    (tradesBegun parse events).map Prod.fst <+: (signalsSent parse events).map SignalDraws.event ∧
    (signalsSent parse events).length ≤ (tradesBegun parse events).length + 65 ∧
    reached parse events <+: madeOf (tradesBegun parse events) ∧
    ((after parse events).pending = [] →
      reached parse events = madeOf (tradesBegun parse events) ∧
      (after parse events).positions = positionsAfter (tradesBegun parse events)) := by
  obtain ⟨hsignals, hmessages, hpositions⟩ := inOrder parse events
  refine ⟨⟨_, hsignals.symm⟩, ?_, ⟨_, hmessages⟩, ?_⟩
  · have hlength := congrArg List.length hsignals
    have hbus : (after parse events).bus.length ≤ 64 + 1 := length_bus_after parse events
    rw [List.length_map, List.length_append, List.length_map] at hlength
    omega
  · intro hidle
    rw [hidle, List.append_nil] at hmessages
    exact ⟨hmessages, hpositions⟩

end Runs

end Hedge.Demo
