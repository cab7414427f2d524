import Hedge.Binance.Risk
import Hedge.Common.Retry
import Mathlib.Tactic.Linarith

/-!
# The Binance execution engine

Reference: `hedge_binance/execution/service.py`.

`placeMarketOrder` posts one order up to three times. The same signed parameters go out again after
an answer that does not say whether the order was executed, so `executions` counts what happens at
the exchange and not what the client sees. The signature is left out: each request carries the one
of its own parameters.
-/

namespace Hedge.Binance

open Hedge.Common

/-! ## The exchange -/

/-- The amount of an order: of the base asset, or of the quote asset. -/
inductive OrderQuantity where
  | base (quantity : ℚ)
  | quote (quoteOrderQty : ℚ)

/-- The parameters of a `POST /api/v3/order`. -/
structure OrderParams where
  symbol : String
  side : String
  quantity : OrderQuantity
  timestamp : ℤ
  recvWindow : ℤ

/-- The fields of the exchange's answer to an order. -/
structure OrderReply where
  orderId : ℕ
  executedQty : ℚ
  cummulativeQuoteQty : ℚ

/-- What the client sees of a request: an order, a status that is no success, or an exception. -/
inductive Reply where
  | order (reply : OrderReply)
  | status (code : ℕ) (body : String)
  | exception (text : String)

/-- What becomes of a request: when the exchange receives it, whether it is valid then, and what the
client sees. -/
structure Post where
  receivedAt : Option ℤ
  valid : Bool
  reply : Reply

/-- The exchange executes each valid request that it receives within the window of its timestamp. -/
def Post.Executed (post : Post) (params : OrderParams) : Prop :=
  ∃ serverTime, post.receivedAt = some serverTime ∧ post.valid = true ∧
    params.timestamp < serverTime + 1000 ∧ serverTime - params.timestamp ≤ params.recvWindow

instance (post : Post) (params : OrderParams) : Decidable (post.Executed params) :=
  decidable_of_iff (post.receivedAt.any (fun serverTime => post.valid &&
    decide (params.timestamp < serverTime + 1000) &&
    decide (serverTime - params.timestamp ≤ params.recvWindow)) = true) (by
      simp [Post.Executed, Option.any_eq_true, and_assoc])

/-- An exchange. It answers with an order only if there is one, and refuses with a status below 500
only what it did not execute; any other answer says nothing. -/
structure Exchange where
  post : ℕ → OrderParams → Post
  executed_of_order : ∀ attempt params reply,
    (post attempt params).reply = .order reply → (post attempt params).Executed params
  not_executed_of_refused : ∀ attempt params code body,
    (post attempt params).reply = .status code body → code < 500 →
      ¬(post attempt params).Executed params

/-! ## Placing an order -/

/-- What `place_market_order` returns. The last one is an empty dictionary. -/
inductive PlaceResult where
  | order (reply : OrderReply)
  | error (text : String) (statusCode : Option ℕ)
  | empty

/-- `"error" in result`. -/
def PlaceResult.hasError : PlaceResult → Bool
  | .error .. => true
  | _ => false

/-- A call of `place_market_order`, with the readings of `now_ms()` before the first request and
before the one that is signed again, and the balances that the account query answers with. -/
structure PlaceCall where
  symbol : String
  side : String
  qtyUsdt : ℚ
  executedQty : ℚ
  startMs : ℤ
  resignMs : ℤ
  balances : Option (List (String × ℚ))

/-- `side.upper()`, on the letters of the sides: the long s is the only other letter whose upper
case is one of them. -/
def upper (side : String) : String :=
  String.ofList (side.toList.map fun c => if c = Char.ofNat 0x17f then 'S' else c.toUpper)

/-- `MAX_RETRIES`. -/
def maxRetries : ℕ := 2

namespace PlaceCall

/-- The parameters of the first request. -/
def params (call : PlaceCall) : OrderParams where
  symbol := call.symbol
  side := upper call.side
  quantity := if 0 < call.executedQty then .base call.executedQty
    else .quote (pyRound 2 call.qtyUsdt)
  timestamp := call.startMs
  recvWindow := 5000

/-- The parameters to go on with after an insufficient balance: those of the actual balance if there
is one, or the same again. `none` if this was not the answer or the query of the balances failed. -/
def retryParams (call : PlaceCall) (attempt code : ℕ) (body : String) (params : OrderParams) :
    Option OrderParams :=
  if code = 400 ∧ body.contains "-2010" = true ∧ 0 < call.executedQty ∧ attempt = 0 then
    call.balances.map fun balances =>
      match balances.find? fun b => b.1 = call.symbol.replace "USDT" "" with
      | some (_, free) =>
        if 0 < free then
          { params with quantity := .base (pyRound 5 free), timestamp := call.resignMs }
        else params
      | none => params
  else none

/-- The loop over the attempts: the result and the requests that were sent. -/
def tryEach (call : PlaceCall) (ex : Exchange) (lastError : PlaceResult) (params : OrderParams) :
    List ℕ → PlaceResult × List (ℕ × OrderParams)
  | [] => (lastError, [])
  | attempt :: rest =>
    match (ex.post attempt params).reply with
    | .order reply => (.order reply, [(attempt, params)])
    | .status code body =>
      match call.retryParams attempt code body params with
      | some next =>
        let out := call.tryEach ex lastError next rest
        (out.1, (attempt, params) :: out.2)
      | none =>
        if code < 500 then (.error body (some code), [(attempt, params)])
        else
          let out := call.tryEach ex (.error body (some code)) params rest
          (out.1, (attempt, params) :: out.2)
    | .exception text =>
      let out := call.tryEach ex (.error text none) params rest
      (out.1, (attempt, params) :: out.2)

/-- `place_market_order` of a client that was started. -/
def placeMarketOrder (call : PlaceCall) (ex : Exchange) : PlaceResult × List (ℕ × OrderParams) :=
  call.tryEach ex .empty call.params (List.range' 0 (maxRetries + 1))

/-- The requests that the exchange executes. -/
def executions (ex : Exchange) (sent : List (ℕ × OrderParams)) : ℕ :=
  sent.countP fun request => (ex.post request.1 request.2).Executed request.2

end PlaceCall

/-! ## The acknowledgement -/

/-- `on_approved`, from the result of the order on. `queried` is what `get_avg_fill_price` answers
if it is asked. -/
def onApproved (sig : Signal) (result : PlaceResult) (queried : ℚ) : Ack :=
  let avgPrice := match result with
    | .order reply =>
      if reply.orderId = 0 then 0
      else
        let avgPrice :=
          if 0 < reply.executedQty then reply.cummulativeQuoteQty / reply.executedQty else 0
        if avgPrice = 0 then queried else avgPrice
    | _ => 0
  { symbol := sig.symbol.getD ""
    side := sig.side.getD "buy"
    qtyUsdt := sig.qtyUsdt.getD 50
    ok := !result.hasError
    executedQty := match result with
      | .order reply => reply.executedQty
      | _ => 0
    avgPrice := pyRound 8 avgPrice
    stopLossPrice := sig.stopLossPrice.getD 0
    takeProfitPrice := sig.takeProfitPrice.getD 0 }

/-! ## How often an order is executed -/

namespace PlaceCall

/-- The parameters to go on with after an attempt. -/
def nextParams (call : PlaceCall) (ex : Exchange) (attempt : ℕ) (params : OrderParams) :
    OrderParams :=
  match (ex.post attempt params).reply with
  | .status code body => (call.retryParams attempt code body params).getD params
  | _ => params

/-- The parameters of an attempt, if it is made. -/
def paramsAt (call : PlaceCall) (ex : Exchange) : ℕ → OrderParams
  | 0 => call.params
  | attempt + 1 => call.nextParams ex attempt (call.paramsAt ex attempt)

/-- The answer to an attempt ends the call. -/
def settles (call : PlaceCall) (ex : Exchange) (attempt : ℕ) : Bool :=
  match (ex.post attempt (call.paramsAt ex attempt)).reply with
  | .order _ => true
  | .status code body =>
    (call.retryParams attempt code body (call.paramsAt ex attempt)).isNone && code < 500
  | .exception _ => false

/-- The attempt would be executed. -/
def ExecutedAt (call : PlaceCall) (ex : Exchange) (attempt : ℕ) : Prop :=
  (ex.post attempt (call.paramsAt ex attempt)).Executed (call.paramsAt ex attempt)

instance (call : PlaceCall) (ex : Exchange) (attempt : ℕ) :
    Decidable (call.ExecutedAt ex attempt) :=
  inferInstanceAs (Decidable (Post.Executed _ _))

section Attempts

variable {call : PlaceCall} {ex : Exchange}

/-- **One attempt** of the loop: it settles the call, and then a result without an error comes from
an order that was executed; or the loop goes on with the parameters of the next attempt, and with an
error unless the first attempt found the balance insufficient. -/
theorem tryEach_step (call : PlaceCall) (ex : Exchange) (lastError : PlaceResult) (k : ℕ)
    (rest : List ℕ) :
    (call.settles ex k = true ∧ ∃ result,
      call.tryEach ex lastError (call.paramsAt ex k) (k :: rest) =
        (result, [(k, call.paramsAt ex k)]) ∧
      (result.hasError = false → call.ExecutedAt ex k)) ∨
    (call.settles ex k = false ∧ ∃ lastError',
      (lastError'.hasError = true ∨ k = 0 ∧ lastError' = lastError) ∧
      call.tryEach ex lastError (call.paramsAt ex k) (k :: rest) =
        ((call.tryEach ex lastError' (call.paramsAt ex (k + 1)) rest).1,
          (k, call.paramsAt ex k) ::
            (call.tryEach ex lastError' (call.paramsAt ex (k + 1)) rest).2)) := by
  rw [tryEach, settles, paramsAt, nextParams]
  cases hreply : (ex.post k (call.paramsAt ex k)).reply with
  | order reply =>
    refine .inl ⟨rfl, .order reply, rfl, fun _ => ?_⟩
    exact ex.executed_of_order k _ reply hreply
  | status code body =>
    dsimp only
    cases hnext : call.retryParams k code body (call.paramsAt ex k) with
    | some next =>
      refine .inr ⟨rfl, lastError, .inr ⟨?_, rfl⟩, rfl⟩
      rw [retryParams] at hnext
      split_ifs at hnext with hbalance
      exact hbalance.2.2.2
    | none =>
      dsimp only
      by_cases hcode : code < 500
      · refine .inl ⟨by rw [decide_eq_true hcode]; rfl, .error body (some code), ?_, ?_⟩
        · rw [if_pos hcode]
        · exact fun h => absurd h Bool.noConfusion
      · refine .inr ⟨by rw [decide_eq_false hcode]; rfl, .error body (some code), .inl rfl, ?_⟩
        rw [if_neg hcode]
        rfl
  | exception text => exact .inr ⟨rfl, .error text none, .inl rfl, rfl⟩

/-- The attempts that are made are those up to the first that settles the call. -/
theorem sent_tryEach (lastError : PlaceResult) (r k : ℕ) :
    (call.tryEach ex lastError (call.paramsAt ex k) (List.range' k (r + 1))).2 =
      (List.range' k (lastAttempt (call.settles ex) r k + 1 - k)).map
        fun i => (i, call.paramsAt ex i) := by
  induction r generalizing lastError k with
  | zero =>
    rw [lastAttempt, Nat.add_sub_cancel_left]
    rcases tryEach_step call ex lastError k [] with ⟨-, result, heq, -⟩ | ⟨-, lastError', -, heq⟩
    · exact congrArg Prod.snd heq
    · exact congrArg Prod.snd heq
  | succ r ih =>
    rw [List.range'_succ, lastAttempt]
    rcases tryEach_step call ex lastError k (List.range' (k + 1) (r + 1)) with
      ⟨hsettles, result, heq, -⟩ | ⟨hsettles, lastError', -, heq⟩
    · rw [if_pos hsettles, Nat.add_sub_cancel_left, heq]
      rfl
    · have hle : k + 1 ≤ lastAttempt (call.settles ex) r (k + 1) := le_lastAttempt r (k + 1)
      have hcount : lastAttempt (call.settles ex) r (k + 1) + 1 - k =
          lastAttempt (call.settles ex) r (k + 1) + 1 - (k + 1) + 1 := by omega
      refine (congrArg Prod.snd heq).trans ?_
      dsimp only
      rw [ih, hsettles, if_neg Bool.false_ne_true, hcount, List.range'_succ, List.map_cons]

/-- A result without an error comes from an attempt that was executed, if something failed before or
an attempt after the first is left. -/
theorem executed_of_not_hasError {lastError : PlaceResult} {r k : ℕ}
    (hleft : lastError.hasError = true ∨ 0 < r ∧ 2 ≤ k + r)
    (hresult : (call.tryEach ex lastError (call.paramsAt ex k)
      (List.range' k r)).1.hasError = false) :
    ∃ request ∈ (call.tryEach ex lastError (call.paramsAt ex k) (List.range' k r)).2,
      (ex.post request.1 request.2).Executed request.2 := by
  induction r generalizing lastError k with
  | zero =>
    obtain herror | ⟨hr, -⟩ := hleft
    · rw [show (call.tryEach ex lastError (call.paramsAt ex k) (List.range' k 0)).1 = lastError
        from rfl, herror] at hresult
      cases hresult
    · exact absurd hr (Nat.lt_irrefl 0)
  | succ r ih =>
    rw [List.range'_succ] at hresult ⊢
    rcases tryEach_step call ex lastError k (List.range' (k + 1) r) with
      ⟨-, result, heq, hexecuted⟩ | ⟨-, lastError', herror, heq⟩
    · rw [heq] at hresult ⊢
      exact ⟨_, List.mem_cons_self, hexecuted hresult⟩
    · rw [heq] at hresult ⊢
      have hleft' : lastError'.hasError = true ∨ 0 < r ∧ 2 ≤ k + 1 + r := by
        rcases herror with herror | ⟨rfl, rfl⟩
        · exact .inl herror
        · exact hleft.imp_right fun h => ⟨by omega, by omega⟩
      obtain ⟨request, hmem, hexec⟩ := ih hleft' hresult
      exact ⟨request, List.mem_cons_of_mem _ hmem, hexec⟩

/-- A call that returns no error has placed an order. -/
theorem executions_pos (hresult : (call.placeMarketOrder ex).1.hasError = false) :
    1 ≤ executions ex (call.placeMarketOrder ex).2 := by
  obtain ⟨request, hmem, hexec⟩ := executed_of_not_hasError (k := 0)
    (.inr ⟨Nat.succ_pos maxRetries, Nat.le_add_left 2 1⟩) hresult
  exact List.countP_pos_iff.mpr ⟨request, hmem, decide_eq_true hexec⟩

/-- How many of the attempts that are made are executed. -/
theorem executions_placeMarketOrder (call : PlaceCall) (ex : Exchange) :
    executions ex (call.placeMarketOrder ex).2 =
      (List.range' 0 (lastAttempt (call.settles ex) maxRetries 0 + 1)).countP
        fun i => (ex.post i (call.paramsAt ex i)).Executed (call.paramsAt ex i) := by
  rw [executions, placeMarketOrder]
  refine (congrArg (List.countP _) (sent_tryEach .empty maxRetries 0)).trans ?_
  rw [List.countP_map]
  rfl

end Attempts

/-- **One order per call, exactly when** no two attempts are executed of which the second is made:
each attempt before it ends in a status of 500 and more, in an exception, or, the first one, in an
insufficient balance for which the balances are found. -/
theorem one_order_iff (call : PlaceCall) (ex : Exchange) :
    (executions ex (call.placeMarketOrder ex).2 ≤ 1 ∧
      ((call.placeMarketOrder ex).1.hasError = false →
        1 ≤ executions ex (call.placeMarketOrder ex).2)) ↔
      ∀ i j, i < j → j ≤ maxRetries → (∀ k < j, call.settles ex k = false) →
        ¬(call.ExecutedAt ex i ∧ call.ExecutedAt ex j) := by
  rw [and_iff_left executions_pos, executions_placeMarketOrder, countP_range'_le_one_iff]
  constructor
  · intro h i j hij hj hsettles hboth
    have hmade : j ≤ lastAttempt (call.settles ex) maxRetries 0 :=
      (le_lastAttempt_iff (Nat.zero_le j)).mpr ⟨by omega, fun k _ hk => hsettles k hk⟩
    refine h i j (Nat.zero_le i) hij (by omega) ?_
    exact ⟨decide_eq_true hboth.1, decide_eq_true hboth.2⟩
  · intro h i j _ hij hj hboth
    obtain ⟨hle, hsettles⟩ := (le_lastAttempt_iff (Nat.zero_le j)).mp
      (show j ≤ lastAttempt (call.settles ex) maxRetries 0 by omega)
    refine h i j hij (by omega) (fun k hk => hsettles k (Nat.zero_le k) hk) ?_
    exact ⟨of_decide_eq_true hboth.1, of_decide_eq_true hboth.2⟩

/-- An exchange that executes the first request and answers it with a 503, and executes the second,
which arrives a second later and is answered by nothing. -/
def slowExchange : Exchange where
  post
    | 0, _ => ⟨some 1005, true, .status 503 "Service Unavailable"⟩
    | 1, _ => ⟨some 2010, true, .exception "timeout"⟩
    | _, _ => ⟨none, false, .exception "timeout"⟩
  executed_of_order
    | 0, _, _, h => by cases h
    | 1, _, _, h => by cases h
    | _ + 2, _, _, h => by cases h
  not_executed_of_refused
    | 0, _, _, _, h, hcode => by
      cases h
      exact absurd hcode (by decide)
    | 1, _, _, _, h, _ => by cases h
    | _ + 2, _, _, _, h, _ => by cases h

/-- An order for 50 USDT, signed at 1000 ms, is executed twice. -/
theorem order_executed_twice : ¬ ∀ (call : PlaceCall) (ex : Exchange),
    executions ex (call.placeMarketOrder ex).2 ≤ 1 ∧
      ((call.placeMarketOrder ex).1.hasError = false →
        1 ≤ executions ex (call.placeMarketOrder ex).2) := by
  intro h
  have hone := (h ⟨"BTCUSDT", "buy", 50, 0, 1000, 1000, some []⟩ slowExchange).1
  rw [executions_placeMarketOrder] at hone
  exact absurd hone (by decide +kernel)

end PlaceCall

end Hedge.Binance
