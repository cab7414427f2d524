import Hedge.Common.Machine
import Hedge.MarketData.Interner
import Mathlib.Data.List.Chain

/-!
# The adapter of a feed

Reference: `hedge-market-data/src/adapter.rs` (`next_message`, `reconnect`),
`hedge-market-data/src/engine.rs` (`run_adapter_loop`).

A stream is the list of what it is going to yield, and a dial either fails or opens a stream. The
loop is run on a stream and the dials after it; where one of them runs out, the loop waits. The
parser of the protocol is an argument. The log of a run says what the stream yielded, what was
handed to the engine and what the adapter published; the wall clock of an event is left out.
-/

namespace Hedge.MarketData

open Hedge Hedge.Common

/-! ## Streams and errors -/

/-- `MarketDataError`. -/
inductive MarketDataError where
  | webSocket (sourceName message : String)
  | parse (protocolName message : String)
  | bus (message : String)
  | reconnectBudgetExhausted (sourceName : String) (attempts : UInt32)
  | config (message : String)
deriving DecidableEq

/-- What a WebSocket stream yields; `ended` is the `None` of a stream that is over. -/
inductive StreamItem where
  | text (bytes : List UInt8)
  | binary (bytes : List UInt8)
  | ping (payload : List UInt8)
  | pong (payload : List UInt8)
  | frame
  | close (reason : Option (ℕ × String))
  | error (message : String)
  | ended
deriving DecidableEq

namespace StreamItem

/-- The bytes of a frame that goes to the parser. -/
def payload : StreamItem → Option (List UInt8)
  | text bytes | binary bytes => some bytes
  | _ => none

/-- A close, a transport error or the end of the stream. -/
def isDrop : StreamItem → Bool
  | close _ | error _ | ended => true
  | _ => false

end StreamItem

/-- The text of a close frame. -/
def closeText : Option (ℕ × String) → String
  | some (code, reason) => "close: " ++ toString code ++ " " ++ reason
  | none => "close: no reason"

/-- The parser of a protocol. -/
abbrev Protocol := List UInt8 → Except MarketDataError RawTick

/-- `next_message` on an open stream: what it reads, its result and what is left. There is no result
while the stream has nothing more to yield. -/
def nextMessage (parse : Protocol) (source : String) :
    List StreamItem → List StreamItem × Option (Except MarketDataError RawTick) × List StreamItem
  | [] => ([], none, [])
  | item :: rest => match item with
    | .text bytes => ([item], some (parse bytes), rest)
    | .binary bytes => ([item], some (parse bytes), rest)
    | .ping _ | .pong _ | .frame =>
      let out := nextMessage parse source rest
      (item :: out.1, out.2)
    | .close reason => ([item], some (.error (.webSocket source (closeText reason))), rest)
    | .error message => ([item], some (.error (.webSocket source message)), rest)
    | .ended => ([item], some (.error (.webSocket source "stream ended")), rest)

/-! ## Reconnects -/

/-- `RECONNECT_BACKOFF_MS`. -/
def reconnectBackoffMs : List ℕ := [100, 200, 400, 800, 1600, 3200, 6400, 12800, 25600]

/-- `RECONNECT_CAP_MS`. -/
def reconnectCapMs : ℕ := 30000

/-- `reconnect_delay_for`, in milliseconds. -/
def reconnectDelayFor (attempt : UInt32) : ℕ :=
  reconnectBackoffMs.getD attempt.toNat reconnectCapMs

/-- `ConnectionStatus`. -/
inductive ConnectionStatus where
  | disconnected
  | reconnected
deriving DecidableEq

/-- `ConnectionEvent`. -/
structure ConnectionEvent where
  source : String
  status : ConnectionStatus
  reason : Option String
  attempt : UInt32
deriving DecidableEq

/-- One entry of the log of a run. -/
inductive LoopEvent where
  | opened (stream : List StreamItem)
  | yielded (item : StreamItem)
  | ingested (raw : RawTick)
  | published (event : ConnectionEvent)
  | slept (ms : ℕ)
  | dialFailed (message : String)

/-- The outcome of a dial. -/
abbrev Dial := Except String (List StreamItem)

/-- `LiveWsAdapter`; its stream is `none` after a dial that failed. -/
structure LiveWsAdapter where
  source : String
  stream : Option (List StreamItem)
  attempts : UInt32

namespace LiveWsAdapter

/-- The first half of `reconnect`: the stream is dropped, the event published and the delay over. -/
def dropStream (a : LiveWsAdapter) : List LoopEvent :=
  [.published ⟨a.source, .disconnected, some "transport drop", a.attempts⟩,
    .slept (reconnectDelayFor a.attempts)]

/-- The second half of `reconnect`, the dial. -/
def redial (a : LiveWsAdapter) : Dial → List LoopEvent × LiveWsAdapter
  | .error message =>
    ([.dialFailed message],
      { a with stream := none, attempts := a.attempts.saturatingAdd 1 })
  | .ok stream =>
    ([.opened stream, .published ⟨a.source, .reconnected, none, a.attempts⟩],
      { a with stream := some stream, attempts := 0 })

/-- `next_message`. -/
def next (parse : Protocol) (a : LiveWsAdapter) :
    List StreamItem × Option (Except MarketDataError RawTick) × List StreamItem :=
  match a.stream with
  | none => ([], some (.error (.webSocket a.source "stream is None")), [])
  | some stream => nextMessage parse a.source stream

end LiveWsAdapter

theorem length_nextMessage {parse : Protocol} {source : String} {stream : List StreamItem}
    {out : Except MarketDataError RawTick}
    (h : (nextMessage parse source stream).2.1 = some out) :
    (nextMessage parse source stream).2.2.length < stream.length := by
  induction stream with
  | nil => cases h
  | cons item rest ih =>
    cases item with
    | ping _ | pong _ | frame => exact Nat.lt_succ_of_lt (ih h)
    | text _ | binary _ | close _ | error _ | ended => exact Nat.lt_succ_self _

/-! ## The loop -/

/-- `run_adapter_loop`, on the outcomes of the dials to come. -/
def runAdapterLoop (parse : Protocol) (a : LiveWsAdapter) (dials : List Dial) : List LoopEvent :=
  match h : (a.next parse).2.1 with
  | none => (a.next parse).1.map .yielded
  | some (.ok raw) =>
    (a.next parse).1.map .yielded ++ .ingested raw ::
      runAdapterLoop parse { a with stream := some (a.next parse).2.2 } dials
  | some (.error _) =>
    (a.next parse).1.map .yielded ++ a.dropStream ++
      match dials with
      | [] => []
      | dial :: dials => (a.redial dial).1 ++ runAdapterLoop parse (a.redial dial).2 dials
termination_by (dials.length, (a.stream.getD []).length)
decreasing_by
  · apply Prod.Lex.right
    match hs : a.stream with
    | none => simp [LiveWsAdapter.next, hs] at h
    | some stream =>
      simp only [LiveWsAdapter.next, hs] at h ⊢
      exact length_nextMessage h
  · exact Prod.Lex.left _ _ (Nat.lt_succ_self _)

/-- What the loop does after `next_message` failed. -/
def reconnects (parse : Protocol) (a : LiveWsAdapter) (dials : List Dial) : List LoopEvent :=
  a.dropStream ++
    match dials with
    | [] => []
    | dial :: dials => (a.redial dial).1 ++ runAdapterLoop parse (a.redial dial).2 dials

section Unfold

variable {parse : Protocol} {a : LiveWsAdapter} {dials : List Dial}

theorem runAdapterLoop_of_waiting (h : (a.next parse).2.1 = none) :
    runAdapterLoop parse a dials = (a.next parse).1.map .yielded := by
  rw [runAdapterLoop.eq_def]
  split
  next => rfl
  next heq => cases h.symm.trans heq
  next heq => cases h.symm.trans heq

theorem runAdapterLoop_of_ok {raw : RawTick} (h : (a.next parse).2.1 = some (.ok raw)) :
    runAdapterLoop parse a dials
      = (a.next parse).1.map .yielded ++ .ingested raw ::
          runAdapterLoop parse { a with stream := some (a.next parse).2.2 } dials := by
  rw [runAdapterLoop.eq_def]
  split
  next heq => cases h.symm.trans heq
  next heq =>
    cases h.symm.trans heq
    rfl
  next heq => cases h.symm.trans heq

theorem runAdapterLoop_of_error {err : MarketDataError}
    (h : (a.next parse).2.1 = some (.error err)) :
    runAdapterLoop parse a dials
      = (a.next parse).1.map .yielded ++ reconnects parse a dials := by
  rw [runAdapterLoop.eq_def]
  split
  next heq => cases h.symm.trans heq
  next heq => cases h.symm.trans heq
  next =>
    rw [reconnects.eq_def, List.append_assoc]

variable {source : String} {attempts : UInt32} {item : StreamItem} {rest : List StreamItem}
  {bytes : List UInt8}

theorem runAdapterLoop_none :
    runAdapterLoop parse ⟨source, none, attempts⟩ dials
      = reconnects parse ⟨source, none, attempts⟩ dials :=
  runAdapterLoop_of_error rfl

theorem runAdapterLoop_nil : runAdapterLoop parse ⟨source, some [], attempts⟩ dials = [] :=
  runAdapterLoop_of_waiting rfl

/-- A control frame is skipped. -/
theorem runAdapterLoop_control (hpayload : item.payload = none) (hdrop : item.isDrop = false) :
    runAdapterLoop parse ⟨source, some (item :: rest), attempts⟩ dials
      = .yielded item :: runAdapterLoop parse ⟨source, some rest, attempts⟩ dials := by
  have hread : LiveWsAdapter.next parse ⟨source, some (item :: rest), attempts⟩
      = (item :: (LiveWsAdapter.next parse ⟨source, some rest, attempts⟩).1,
          (LiveWsAdapter.next parse ⟨source, some rest, attempts⟩).2) := by
    cases item with
    | ping _ | pong _ | frame => rfl
    | text _ | binary _ => cases hpayload
    | close _ | error _ | ended => cases hdrop
  cases hres : (LiveWsAdapter.next parse ⟨source, some rest, attempts⟩).2.1 with
  | none =>
    rw [runAdapterLoop_of_waiting hres, runAdapterLoop_of_waiting (by rw [hread]; exact hres),
      hread]
    rfl
  | some out =>
    cases out with
    | ok raw =>
      rw [runAdapterLoop_of_ok hres, runAdapterLoop_of_ok (by rw [hread]; exact hres), hread]
      rfl
    | error err =>
      rw [runAdapterLoop_of_error hres, runAdapterLoop_of_error (by rw [hread]; exact hres), hread]
      rfl

/-- A frame that the parser takes is ingested. -/
theorem runAdapterLoop_accepted {raw : RawTick} (hpayload : item.payload = some bytes)
    (hparse : parse bytes = .ok raw) :
    runAdapterLoop parse ⟨source, some (item :: rest), attempts⟩ dials
      = .yielded item :: .ingested raw ::
          runAdapterLoop parse ⟨source, some rest, attempts⟩ dials := by
  have hread : LiveWsAdapter.next parse ⟨source, some (item :: rest), attempts⟩
      = ([item], some (.ok raw), rest) := by
    rw [← hparse]
    cases item <;> cases hpayload <;> rfl
  rw [runAdapterLoop_of_ok (by rw [hread]), hread]
  rfl

/-- A frame that the parser rejects costs the connection. -/
theorem runAdapterLoop_rejected {err : MarketDataError} (hpayload : item.payload = some bytes)
    (hparse : parse bytes = .error err) :
    runAdapterLoop parse ⟨source, some (item :: rest), attempts⟩ dials
      = .yielded item :: reconnects parse ⟨source, some (item :: rest), attempts⟩ dials := by
  have hread : LiveWsAdapter.next parse ⟨source, some (item :: rest), attempts⟩
      = ([item], some (.error err), rest) := by
    rw [← hparse]
    cases item <;> cases hpayload <;> rfl
  rw [runAdapterLoop_of_error (by rw [hread]), hread]
  rfl

theorem runAdapterLoop_drop (hdrop : item.isDrop = true) :
    runAdapterLoop parse ⟨source, some (item :: rest), attempts⟩ dials
      = .yielded item :: reconnects parse ⟨source, some (item :: rest), attempts⟩ dials := by
  obtain ⟨err, hread⟩ : ∃ err, LiveWsAdapter.next parse ⟨source, some (item :: rest), attempts⟩
      = ([item], some (.error err), rest) := by
    cases item with
    | close _ | error _ | ended => exact ⟨_, rfl⟩
    | text _ | binary _ | ping _ | pong _ | frame => cases hdrop
  rw [runAdapterLoop_of_error (by rw [hread]), hread]
  rfl

end Unfold

/-! ## What costs the connection -/

/-- A `disconnected` event. -/
def LoopEvent.isDisconnect : LoopEvent → Bool
  | published event => event.status = .disconnected
  | _ => false

/-- A close, a transport error, the end of the stream or a dial that failed. -/
def LoopEvent.isLoss : LoopEvent → Bool
  | yielded item => item.isDrop
  | dialFailed _ => true
  | _ => false

/-- The tick of a log entry. -/
def LoopEvent.tick : LoopEvent → Option RawTick
  | ingested raw => some raw
  | _ => none

/-- The tick of a frame that the parser accepts. -/
def accepted (parse : Protocol) (item : StreamItem) : Option RawTick :=
  item.payload.bind fun bytes => (parse bytes).toOption

/-- Whether the parser rejects a frame. -/
def rejected (parse : Protocol) (item : StreamItem) : Bool :=
  item.payload.isSome && (accepted parse item).isNone

/-- What a stream delivers before it is lost. -/
def beforeDrop (stream : List StreamItem) : List StreamItem := stream.takeWhile fun i => !i.isDrop

/-- The ticks ingested before the next `disconnected` event. -/
def ingestedBefore (log : List LoopEvent) : List RawTick :=
  (log.takeWhile fun e => !e.isDisconnect).filterMap LoopEvent.tick

/-- Every tick that a stream delivers is ingested, in order, before the next `disconnected` event.
-/
def IngestsAll (parse : Protocol) : List LoopEvent → Prop
  | [] => True
  | .opened stream :: log =>
    ingestedBefore log = (beforeDrop stream).filterMap (accepted parse) ∧ IngestsAll parse log
  | _ :: log => IngestsAll parse log

/-- Each `disconnected` event follows a loss, and no tick is lost before it. -/
structure KeepsConnection (parse : Protocol) (log : List LoopEvent) : Prop where
  afterLoss : log.IsChain fun e next => next.isDisconnect = true → e.isLoss = true
  ingestsAll : IngestsAll parse log

/-- No stream yields a frame that the parser rejects before it is lost. Dials after a stream that is
never lost are not made. -/
def NoneRejected (parse : Protocol) : List Dial → Prop
  | [] => True
  | .error _ :: dials => NoneRejected parse dials
  | .ok stream :: dials =>
    (∀ item ∈ beforeDrop stream, rejected parse item = false) ∧
      (stream.any StreamItem.isDrop = true → NoneRejected parse dials)

/-- The log of an adapter from its first connection on. -/
def adapterLog (parse : Protocol) (source : String) (stream : List StreamItem)
    (dials : List Dial) : List LoopEvent :=
  .opened stream :: runAdapterLoop parse ⟨source, some stream, 0⟩ dials

section Log

variable {parse : Protocol} {source : String} {attempts : UInt32} {dials : List Dial}

theorem reconnects_stream (stream : Option (List StreamItem)) :
    reconnects parse ⟨source, stream, attempts⟩ dials
      = reconnects parse ⟨source, none, attempts⟩ dials := by
  match dials with
  | [] => rfl
  | .error _ :: _ => rfl
  | .ok _ :: _ => rfl

/-- How a frame, a control frame and a loss are told apart. -/
theorem item_cases (parse : Protocol) (item : StreamItem) :
    (∃ bytes raw, item.payload = some bytes ∧ parse bytes = .ok raw) ∨
      (∃ bytes err, item.payload = some bytes ∧ parse bytes = .error err) ∨
        (item.payload = none ∧ item.isDrop = false) ∨ item.payload = none ∧ item.isDrop = true := by
  cases hpayload : item.payload with
  | none =>
    cases hdrop : item.isDrop with
    | false => exact .inr (.inr (.inl ⟨rfl, rfl⟩))
    | true => exact .inr (.inr (.inr ⟨rfl, rfl⟩))
  | some bytes =>
    cases hparse : parse bytes with
    | ok raw => exact .inl ⟨bytes, raw, rfl, hparse⟩
    | error err => exact .inr (.inl ⟨bytes, err, rfl, hparse⟩)

theorem isDrop_of_payload {item : StreamItem} {bytes : List UInt8}
    (h : item.payload = some bytes) : item.isDrop = false := by
  cases item <;> cases h <;> rfl

theorem beforeDrop_drop {item : StreamItem} (h : item.isDrop = true) (rest : List StreamItem) :
    beforeDrop (item :: rest) = [] := by
  rw [beforeDrop, List.takeWhile_cons_of_neg (by simp [h])]

theorem beforeDrop_keep {item : StreamItem} (h : item.isDrop = false) (rest : List StreamItem) :
    beforeDrop (item :: rest) = item :: beforeDrop rest := by
  rw [beforeDrop, List.takeWhile_cons_of_pos (by simp [h]), beforeDrop]

theorem any_keep {item : StreamItem} (h : item.isDrop = false) (rest : List StreamItem) :
    (item :: rest).any StreamItem.isDrop = rest.any StreamItem.isDrop := by
  rw [List.any_cons, h, Bool.false_or]

theorem accepted_of_ok {item : StreamItem} {bytes : List UInt8} {raw : RawTick}
    (hpayload : item.payload = some bytes) (hparse : parse bytes = .ok raw) :
    accepted parse item = some raw := by
  rw [accepted, hpayload, Option.bind_some, hparse]
  rfl

theorem rejected_of_error {item : StreamItem} {bytes : List UInt8} {err : MarketDataError}
    (hpayload : item.payload = some bytes) (hparse : parse bytes = .error err) :
    rejected parse item = true := by
  rw [rejected, accepted, hpayload, Option.bind_some, hparse]
  rfl

theorem rejected_of_ok {item : StreamItem} {bytes : List UInt8} {raw : RawTick}
    (hpayload : item.payload = some bytes) (hparse : parse bytes = .ok raw) :
    rejected parse item = false := by
  rw [rejected, accepted_of_ok hpayload hparse]
  simp

theorem accepted_of_control {item : StreamItem} (hpayload : item.payload = none) :
    accepted parse item = none := by
  rw [accepted, hpayload]
  rfl

theorem rejected_of_control {item : StreamItem} (hpayload : item.payload = none) :
    rejected parse item = false := by
  rw [rejected, hpayload]
  rfl

/-- The first entry of a reconnect is a `disconnected` event. -/
theorem reconnects_cons (parse : Protocol) (a : LiveWsAdapter) (dials : List Dial) :
    ∃ rest, reconnects parse a dials
      = .published ⟨a.source, .disconnected, some "transport drop", a.attempts⟩ :: rest :=
  ⟨_, rfl⟩

/-- Only losses come before the `disconnected` events of a stream if none of its frames is
rejected. -/
theorem isChain_run_iff (prev : LoopEvent) (stream : List StreamItem) :
    (prev :: runAdapterLoop parse ⟨source, some stream, attempts⟩ dials).IsChain
        (fun e next => next.isDisconnect = true → e.isLoss = true) ↔
      (∀ item ∈ beforeDrop stream, rejected parse item = false) ∧
        (stream.any StreamItem.isDrop = true →
          (reconnects parse ⟨source, none, attempts⟩ dials).IsChain
            fun e next => next.isDisconnect = true → e.isLoss = true) := by
  induction stream generalizing prev with
  | nil =>
    rw [runAdapterLoop_nil]
    simp [beforeDrop]
  | cons item rest ih =>
    rcases item_cases parse item with ⟨bytes, raw, hpayload, hparse⟩ |
      ⟨bytes, err, hpayload, hparse⟩ | ⟨hpayload, hdrop⟩ | ⟨hpayload, hdrop⟩
    · have hdrop := isDrop_of_payload hpayload
      rw [runAdapterLoop_accepted hpayload hparse, List.isChain_cons_cons, List.isChain_cons_cons,
        ih, beforeDrop_keep hdrop, any_keep hdrop]
      simp [LoopEvent.isDisconnect, rejected_of_ok hpayload hparse]
    · have hdrop := isDrop_of_payload hpayload
      obtain ⟨tail, htail⟩ := reconnects_cons parse ⟨source, some (item :: rest), attempts⟩ dials
      rw [runAdapterLoop_rejected hpayload hparse, htail, beforeDrop_keep hdrop]
      simp [LoopEvent.isDisconnect, LoopEvent.isLoss, hdrop, rejected_of_error hpayload hparse]
    · rw [runAdapterLoop_control hpayload hdrop, List.isChain_cons_cons, ih, beforeDrop_keep hdrop,
        any_keep hdrop]
      simp [LoopEvent.isDisconnect, rejected_of_control hpayload]
    · rw [runAdapterLoop_drop hdrop, reconnects_stream, List.isChain_cons_cons,
        beforeDrop_drop hdrop]
      obtain ⟨tail, htail⟩ := reconnects_cons parse ⟨source, none, attempts⟩ dials
      rw [htail, List.isChain_cons_cons]
      simp [LoopEvent.isDisconnect, LoopEvent.isLoss, hdrop]

theorem reconnects_failed (message : String) :
    reconnects parse ⟨source, none, attempts⟩ (.error message :: dials)
      = LiveWsAdapter.dropStream ⟨source, none, attempts⟩ ++ .dialFailed message ::
          reconnects parse ⟨source, none, attempts.saturatingAdd 1⟩ dials := by
  show LiveWsAdapter.dropStream ⟨source, none, attempts⟩ ++ ([.dialFailed message] ++
    runAdapterLoop parse ⟨source, none, attempts.saturatingAdd 1⟩ dials) = _
  rw [runAdapterLoop_none, List.singleton_append]

theorem reconnects_opened (stream : List StreamItem) :
    reconnects parse ⟨source, none, attempts⟩ (.ok stream :: dials)
      = LiveWsAdapter.dropStream ⟨source, none, attempts⟩ ++ .opened stream ::
          .published ⟨source, .reconnected, none, attempts⟩ ::
            runAdapterLoop parse ⟨source, some stream, 0⟩ dials := rfl

/-- The same of all the streams after a loss. -/
theorem isChain_reconnects_iff (attempts : UInt32) (dials : List Dial) :
    (reconnects parse ⟨source, none, attempts⟩ dials).IsChain
        (fun e next => next.isDisconnect = true → e.isLoss = true) ↔ NoneRejected parse dials := by
  induction dials generalizing attempts with
  | nil => simp [reconnects, LiveWsAdapter.dropStream, NoneRejected, LoopEvent.isDisconnect]
  | cons dial dials ih =>
    cases dial with
    | error message =>
      rw [reconnects_failed, NoneRejected, ← ih (attempts.saturatingAdd 1)]
      obtain ⟨tail, htail⟩ := reconnects_cons parse ⟨source, none, attempts.saturatingAdd 1⟩ dials
      rw [htail]
      simp [LiveWsAdapter.dropStream, LoopEvent.isDisconnect, LoopEvent.isLoss]
    | ok stream =>
      rw [reconnects_opened, NoneRejected, ← ih 0,
        ← isChain_run_iff (.published ⟨source, .reconnected, none, attempts⟩)]
      simp [LiveWsAdapter.dropStream, LoopEvent.isDisconnect]

/-- What the first item of a stream is if no frame is rejected before the stream is lost. -/
theorem clean_cases {item : StreamItem} {rest : List StreamItem}
    (h : ∀ i ∈ beforeDrop (item :: rest), rejected parse i = false) :
    (∃ bytes raw, item.payload = some bytes ∧ parse bytes = .ok raw ∧ item.isDrop = false ∧
        ∀ i ∈ beforeDrop rest, rejected parse i = false) ∨
      (item.payload = none ∧ item.isDrop = false ∧
        ∀ i ∈ beforeDrop rest, rejected parse i = false) ∨
      item.isDrop = true := by
  cases hdrop : item.isDrop with
  | true => exact .inr (.inr rfl)
  | false =>
    rw [beforeDrop_keep hdrop, List.forall_mem_cons] at h
    obtain ⟨hfirst, hrest⟩ := h
    rcases item_cases parse item with ⟨bytes, raw, hpayload, hparse⟩ |
      ⟨bytes, err, hpayload, hparse⟩ | ⟨hpayload, -⟩ | ⟨-, hlost⟩
    · exact .inl ⟨bytes, raw, hpayload, hparse, rfl, hrest⟩
    · exact absurd (hfirst.symm.trans (rejected_of_error hpayload hparse)) Bool.false_ne_true
    · exact .inr (.inl ⟨hpayload, rfl, hrest⟩)
    · exact absurd (hdrop.symm.trans hlost) Bool.false_ne_true

/-- Without rejected frames every tick that a stream delivers is ingested. -/
theorem ingestedBefore_run {stream : List StreamItem}
    (h : ∀ item ∈ beforeDrop stream, rejected parse item = false) :
    ingestedBefore (runAdapterLoop parse ⟨source, some stream, attempts⟩ dials)
      = (beforeDrop stream).filterMap (accepted parse) := by
  have hcons : ∀ (e : LoopEvent) (log : List LoopEvent), e.isDisconnect = false →
      ingestedBefore (e :: log) = e.tick.toList ++ ingestedBefore log := by
    intro e log he
    rw [ingestedBefore, List.takeWhile_cons_of_pos (by simp [he]), List.filterMap_cons]
    cases e.tick <;> rfl
  induction stream with
  | nil =>
    rw [runAdapterLoop_nil]
    rfl
  | cons item rest ih =>
    rcases clean_cases h with ⟨bytes, raw, hpayload, hparse, hdrop, hrest⟩ |
      ⟨hpayload, hdrop, hrest⟩ | hdrop
    · rw [beforeDrop_keep hdrop, runAdapterLoop_accepted hpayload hparse, hcons _ _ rfl,
        hcons _ _ rfl, ih hrest, List.filterMap_cons_some (accepted_of_ok hpayload hparse)]
      rfl
    · rw [beforeDrop_keep hdrop, runAdapterLoop_control hpayload hdrop, hcons _ _ rfl, ih hrest,
        List.filterMap_cons_none (accepted_of_control hpayload)]
      rfl
    · obtain ⟨tail, htail⟩ := reconnects_cons parse ⟨source, some (item :: rest), attempts⟩ dials
      rw [runAdapterLoop_drop hdrop, hcons _ _ rfl, htail, beforeDrop_drop hdrop]
      rfl

theorem ingestsAll_run {stream : List StreamItem}
    (h : ∀ item ∈ beforeDrop stream, rejected parse item = false)
    (hafter : stream.any StreamItem.isDrop = true →
      IngestsAll parse (reconnects parse ⟨source, none, attempts⟩ dials)) :
    IngestsAll parse (runAdapterLoop parse ⟨source, some stream, attempts⟩ dials) := by
  induction stream with
  | nil =>
    rw [runAdapterLoop_nil]
    trivial
  | cons item rest ih =>
    rcases clean_cases h with ⟨bytes, raw, hpayload, hparse, hdrop, hrest⟩ |
      ⟨hpayload, hdrop, hrest⟩ | hdrop
    · rw [any_keep hdrop] at hafter
      rw [runAdapterLoop_accepted hpayload hparse]
      exact ih hrest hafter
    · rw [any_keep hdrop] at hafter
      rw [runAdapterLoop_control hpayload hdrop]
      exact ih hrest hafter
    · rw [runAdapterLoop_drop hdrop, reconnects_stream]
      exact hafter (by rw [List.any_cons, hdrop, Bool.true_or])

theorem ingestsAll_reconnects (attempts : UInt32) {dials : List Dial}
    (h : NoneRejected parse dials) :
    IngestsAll parse (reconnects parse ⟨source, none, attempts⟩ dials) := by
  induction dials generalizing attempts with
  | nil => trivial
  | cons dial dials ih =>
    cases dial with
    | error message =>
      rw [reconnects_failed]
      exact ih _ h
    | ok stream =>
      obtain ⟨hclean, hafter⟩ := h
      rw [reconnects_opened]
      refine ⟨?_, ingestsAll_run hclean fun hdrop => ih 0 (hafter hdrop)⟩
      show ingestedBefore (runAdapterLoop parse ⟨source, some stream, 0⟩ dials) = _
      exact ingestedBefore_run hclean

end Log

/-- The loop reconnects only after a loss and loses no tick before it exactly if the parser rejects
no frame that a stream yields before it is lost. -/
theorem keepsConnection_iff (parse : Protocol) (source : String) (stream : List StreamItem)
    (dials : List Dial) :
    KeepsConnection parse (adapterLog parse source stream dials) ↔
      NoneRejected parse (.ok stream :: dials) := by
  constructor
  · intro h
    obtain ⟨hclean, hafter⟩ := (isChain_run_iff _ _).mp h.afterLoss
    exact ⟨hclean, fun hdrop => (isChain_reconnects_iff 0 dials).mp (hafter hdrop)⟩
  · rintro ⟨hclean, hafter⟩
    refine ⟨(isChain_run_iff _ _).mpr ⟨hclean, fun hdrop => ?_⟩, ingestedBefore_run hclean, ?_⟩
    · exact (isChain_reconnects_iff 0 dials).mpr (hafter hdrop)
    · exact ingestsAll_run hclean fun hdrop => ingestsAll_reconnects 0 (hafter hdrop)

/-- A parser of ticks of one byte. -/
def byteProtocol : Protocol
  | [price] => .ok ⟨"RELIANCE", price.toUInt64.toInt64, 0, 0, 1, 0, 0, 0⟩
  | _ => .error (.parse "byte" "one byte expected")

/-- An empty text frame between two ticks: the adapter publishes `disconnected` without a loss, and
the second tick is gone. -/
theorem connection_lost_to_malformed_frame :
    ¬ KeepsConnection byteProtocol
      (adapterLog byteProtocol "nse_l1" [.binary [100], .text [], .binary [101]] []) := by
  intro h
  obtain ⟨hclean, -⟩ := (isChain_run_iff _ _).mp h.afterLoss
  exact absurd (hclean (.text []) (by decide)) (by decide)

end Hedge.MarketData
