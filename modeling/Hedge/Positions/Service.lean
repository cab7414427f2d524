import Hedge.Bus
import Hedge.Common.Json
import Hedge.Common.Run
import Hedge.Positions.Engine

/-!
# The position service

Reference: `hedge-position/src/bin/main.rs`.

The service is the machine that feeds the messages of its two subscriptions, `exec.fill.>` and
`md.tick.bin.>`, into the engine. What it publishes in turn is the list of engine events. Payloads
of fills are parsed JSON; a payload that does not parse is dropped before the engine sees it.
-/

namespace Hedge.Positions

open Hedge Hedge.Common Hedge.Bus

/-- The reader half of `handle_fill`: the symbol and the fill of an `exec.fill.<sym>` event. -/
def readFill (v : Json) : Option (SymbolId × Fill) :=
  let data := (v.get "data").getD v
  let symbolStr := ((data.get "symbol").bind Json.asStr).getD ""
  let symbolId := symbolIdFor symbolStr
  if symbolId = 0 then none
  else
    let qty := ((data.get "filled_qty").bind Json.asU64).getD 0
    if qty = 0 then none
    else
      let fillPaise := ((data.get "avg_fill_paise").bind Json.asI64).getD 0
      let side := match (data.get "side").bind Json.asStr with
        | some "sell" | some "Sell" => Side.sell
        | _ => Side.buy
      some (⟨symbolId⟩, ⟨side, qty, fillPaise⟩)

/-- `handle_fill`. -/
def handleFill (engine : PositionEngine) (v : Json) (nowNs : UInt64) :
    List PositionEvent × PositionEngine :=
  match readFill v with
  | none => ([], engine)
  | some (symbol, fill) => engine.onFill symbol fill nowNs

/-- `handle_tick`: `Tick_v1` carries the symbol at offset 16 and the last price at offset 21. -/
def handleTick (engine : PositionEngine) (bytes : List UInt8) (nowNs : UInt64) :
    List PositionEvent × PositionEngine :=
  if bytes.length < 29 then ([], engine)
  else
    let symbolId := UInt32.ofNat (ofLe ((bytes.drop 16).take 4))
    if symbolId = 0 then ([], engine)
    else
      let ltpPaise := Int64.ofNat (ofLe ((bytes.drop 21).take 8))
      engine.onTick ⟨symbolId⟩ ltpPaise nowNs

/-- A message of one of the two subscriptions, with the clock reading of its handler. -/
inductive Delivery where
  | fill (payload : Json) (nowNs : UInt64)
  | tick (bytes : List UInt8) (nowNs : UInt64)

/-- The payload of a fill message. -/
def Delivery.fillPayload : Delivery → Option Json
  | fill payload _ => some payload
  | tick _ _ => none

/-- One iteration of a consumer task. -/
def serviceStep (engine : PositionEngine) : Delivery → List PositionEvent × PositionEngine
  | .fill payload nowNs => handleFill engine payload nowNs
  | .tick bytes nowNs => handleTick engine bytes nowNs

/-- The fills of a symbol that the service reads from a sequence of payloads. -/
def fillsRead (s : SymbolId) (payloads : List Json) : List Fill :=
  ((payloads.filterMap readFill).filter (·.1 = s)).map (·.2)

theorem fillsRead_cons (s : SymbolId) (payload : Json) (payloads : List Json) :
    fillsRead s (payload :: payloads) = fillsRead s [payload] ++ fillsRead s payloads := by
  cases h : readFill payload with
  | none => simp [fillsRead, h]
  | some read => by_cases hs : read.1 = s <;> simp [fillsRead, h, hs]

/-- A message books the fill read from it and nothing else. -/
theorem ledgerOf_serviceStep (engine : PositionEngine) (d : Delivery) (s : SymbolId) :
    (serviceStep engine d).2.ledgerOf s
      = (fillsRead s d.fillPayload.toList).foldl Ledger.book (engine.ledgerOf s) := by
  cases d with
  | tick bytes nowNs =>
    simp only [serviceStep, handleTick]
    split_ifs
    · rfl
    · rfl
    · exact PositionEngine.ledgerOf_onTick ..
  | fill payload nowNs =>
    simp only [serviceStep, handleFill]
    cases h : readFill payload with
    | none => simp [fillsRead, Delivery.fillPayload, h]
    | some read =>
      obtain ⟨symbol, fill⟩ := read
      dsimp only
      rw [PositionEngine.ledgerOf_onFill]
      by_cases hs : s = symbol
      · simp [fillsRead, Delivery.fillPayload, h, hs]
      · have hs' : ¬symbol = s := fun h => hs h.symm
        simp [fillsRead, Delivery.fillPayload, h, hs, hs']

/-- The book after a run is the fold of the fills read during it. -/
theorem ledgerOf_runState (engine : PositionEngine) (ds : List Delivery) (s : SymbolId) :
    (runState serviceStep engine ds).ledgerOf s
      = (fillsRead s (ds.filterMap Delivery.fillPayload)).foldl Ledger.book
          (engine.ledgerOf s) := by
  induction ds generalizing engine with
  | nil => rfl
  | cons d ds ih =>
    rw [runState_cons, ih, ledgerOf_serviceStep]
    cases d with
    | tick bytes nowNs => rfl
    | fill payload nowNs =>
      have hcons : (Delivery.fill payload nowNs :: ds).filterMap Delivery.fillPayload
          = payload :: ds.filterMap Delivery.fillPayload := rfl
      rw [hcons, fillsRead_cons, List.foldl_append]
      rfl

end Hedge.Positions
