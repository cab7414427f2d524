import Hedge.Common.FloatOps
import Hedge.Common.Run
import Hedge.Core.Types
import Hedge.MarketData.Ticks
import Mathlib.Data.List.Destutter
import Mathlib.Data.String.Basic

/-!
# The Upstox bridge

Reference: `hedge-market-data/src/bin/upstox_feed.rs`.

Two pollers of the bridge keep state from one reply to the next. The poller of last prices counts
the replies that failed in a row and reports the connection by that count; the poller of options
keeps the expiry it found for an underlying until the day is past it or a chain could not be read.
The text of a failed request is part of its reply, clock readings are arguments, and prices are
converted to paise without rounding the product. Sleeping is left out.
-/

namespace Hedge.MarketData.Upstox

open Hedge Hedge.Common

/-- `SOURCE`. -/
def source : String := "upstox"

/-- What a request ends with: the text of its error, or a JSON document. -/
abbrev Reply := Except String Json

/-- The clock when a message is built. -/
structure Stamp where
  tsNs : Int64
  rfc3339 : String

/-! ## Connection messages -/

/-- The fields of a connection message: flat ones for the supervisor, then those of the cockpit. -/
def connectionPayload (status : String) (reason : Json) (attempt : UInt32) (cockpitStatus : String)
    (stamp : Stamp) : Json :=
  .obj [("source", .str source), ("status", .str status), ("reason", reason),
    ("attempt", .ofU32 attempt), ("at", .str stamp.rfc3339), ("kind", .str "connection"),
    ("data", .obj [("source", .str source), ("status", .str cockpitStatus),
      ("ts_ns", .ofI64 stamp.tsNs)])]

/-- The payload of `publish_connected`. -/
def publishConnected (stamp : Stamp) : Json :=
  connectionPayload "reconnected" .null 0 "ok" stamp

/-- The payload of `publish_disconnected`. -/
def publishDisconnected (reason : String) (attempt : UInt32) (stamp : Stamp) : Json :=
  connectionPayload "disconnected" (.str reason) attempt
    (if 5 < attempt then "down" else "degraded") stamp

/-! ## Last prices -/

/-- A response value with its key under `_data_key`; only an object can take it. -/
def withDataKey (key : String) : Json → Json
  | .obj fields => .obj (("_data_key", .str key) :: fields.filter fun field => field.1 ≠ "_data_key")
  | v => v

/-- The instrument a response value names. -/
def instrumentToken (v : Json) : Option String := (v.get "instrument_token").bind Json.asStr

/-- The `NSE_EQ:<TRADING_SYMBOL>` form of an instrument key. -/
def colonForm (instrument : String) : String :=
  instrument.map fun c => if c = '|' then ':' else c

/-- One entry of the response, indexed by the token in it. -/
def indexByToken (instruments : List String) (out : Map String Json) (entry : String × Json) :
    Map String Json :=
  match instrumentToken entry.2 with
  | some token =>
    if token ∈ instruments then out.insert token (withDataKey entry.1 entry.2) else out
  | none => out

/-- One instrument that no token has named, looked up by its colon form. -/
def fallBackToKey (data : List (String × Json)) (out : Map String Json) (instrument : String) :
    Map String Json :=
  if instrument ∈ out then out
  else match data.lookup (colonForm instrument) with
    | some v => out.insert instrument (withDataKey (colonForm instrument) v)
    | none => out

/-- `extract_data_map`, on the entries of the response in the order of their keys. -/
def extractDataMap (body : Json) (instruments : List String) : Except String (Map String Json) :=
  match body.get "data" with
  | some (.obj data) =>
    .ok (instruments.foldl (fallBackToKey data) (data.foldl (indexByToken instruments) ∅))
  | _ => .error "missing data object in upstox response"

/-- `fetch_ltp` after its request. -/
def fetchLtp (instruments : List String) (reply : Reply) : Except String (Map String Json) :=
  reply.bind fun body => extractDataMap body instruments

/-- What the poller of last prices hands on. -/
inductive LtpOutput where
  | connection (payload : Json)
  | tick (instrumentKey : String) (item : Json)

/-- A reply and the time at which a message about it is built. -/
structure LtpPoll where
  reply : Reply
  stamp : Stamp

/-- One turn of `run_ltp_loop`, on the errors counted so far. -/
def ltpTurn (instruments : List String) (consecutiveErrors : UInt32) (poll : LtpPoll) :
    List LtpOutput × UInt32 :=
  match fetchLtp instruments poll.reply with
  | .ok items =>
    ((if 0 < consecutiveErrors then [.connection (publishConnected poll.stamp)] else [])
        ++ items.entries.map fun entry => .tick entry.1 entry.2, 0)
  | .error e =>
    let consecutiveErrors := consecutiveErrors.saturatingAdd 1
    -- The first error of a row, and then each time the row has doubled.
    (if consecutiveErrors = 1 ∨ consecutiveErrors.toNat.isPowerOfTwo then
        [.connection (publishDisconnected ("ltp: " ++ e) consecutiveErrors poll.stamp)]
      else [], consecutiveErrors)

/-- What `main` and its poller of last prices hand on: no poller runs after a failed probe. -/
def ltpOutputs (instruments : List String) (probe : Except String Unit) (stamp : Stamp)
    (polls : List LtpPoll) : List LtpOutput :=
  match probe with
  | .error e => [.connection (publishDisconnected e 0 stamp)]
  | .ok () => .connection (publishConnected stamp)
      :: (runOutputs (ltpTurn instruments) 0 polls).flatten

/-! ## Options -/

/-- `Value::as_array` of the field `data`. -/
def dataArray (body : Json) : Option (List Json) :=
  match body.get "data" with
  | some (.arr elems) => some elems
  | _ => none

/-- The expiries that a response lists. -/
def listedExpiries (data : List Json) : List String :=
  data.filterMap fun contract => (contract.get "expiry").bind Json.asStr

/-- `discover_nearest_expiry` after its request. -/
def discoverNearestExpiry (reply : Reply) (today : String) : Except String String :=
  reply.bind fun body => match dataArray body with
    | none => .error "option contract: missing data array"
    | some data =>
      let expiries := (((listedExpiries data).filter fun e => today ≤ e).mergeSort
        fun a b => a ≤ b).destutter (· ≠ ·)
      match expiries.head? with
      | some expiry => .ok expiry
      | none => .error "no future expiry found for underlying"

/-- `fetch_option_chain` after its request. -/
def fetchOptionChain (reply : Reply) : Except String (List Json) :=
  reply.bind fun body => match dataArray body with
    | some data => .ok data
    | none => .error "option chain: missing data array"

/-- `resolve_expiry`: the expiry of an underlying, and the cache with it. -/
def resolveExpiry (underlying today : String) (contracts : Reply) (cache : Map String String) :
    Except String (String × Map String String) :=
  match (cache.lookup underlying).filter fun cached => today ≤ cached with
  | some cached => .ok (cached, cache)
  | none => (discoverNearestExpiry contracts today).map fun expiry =>
      (expiry, cache.insert underlying expiry)

/-- A strike of the ladder. -/
structure Strike where
  strikePaise : Int64
  callOi : UInt64
  putOi : UInt64
  callChgOi : Int64
  putChgOi : Int64
deriving DecidableEq

/-- The strike as JSON. -/
def Strike.toJson (strike : Strike) : Json :=
  .obj [("strike_paise", .ofI64 strike.strikePaise), ("call_oi", .ofU64 strike.callOi),
    ("put_oi", .ofU64 strike.putOi), ("call_chg_oi", .ofI64 strike.callChgOi),
    ("put_chg_oi", .ofI64 strike.putChgOi)]

/-- `(rupees * 100.0).round() as i64`. -/
def rupeesToPaise (rupees : ℚ) : Int64 := Int64.clamp (ExactFloat.roundRat (rupees * 100))

/-- `x as u64`: the fraction is cut off, and the value saturates. -/
def floatAsU64 (q : ℚ) : UInt64 := UInt64.ofNat (min ⌊q⌋.toNat (2 ^ 64 - 1))

/-- `oi_pair`. -/
def oiPair (side : Option Json) : UInt64 × UInt64 :=
  match side.bind (·.get "market_data") with
  | none => (0, 0)
  | some md =>
    (floatAsU64 (((md.get "oi").bind Json.asF64).getD 0),
      floatAsU64 (((md.get "prev_oi").bind Json.asF64).getD 0))

/-- The strike of a chain entry that has a price. -/
def strikeOf (entry : Json) : Option Strike :=
  ((entry.get "strike_price").bind Json.asF64).map fun strikeRupees =>
    let (callOi, callPrev) := oiPair (entry.get "call_options")
    let (putOi, putPrev) := oiPair (entry.get "put_options")
    { strikePaise := rupeesToPaise strikeRupees
      callOi := callOi
      putOi := putOi
      callChgOi := callOi.toInt64 - callPrev.toInt64
      putChgOi := putOi.toInt64 - putPrev.toInt64 }

/-- The spot of a chain: that of the first entry that has one. -/
def spotPaise (chain : List Json) : Int64 :=
  ((chain.findSome? fun entry => (entry.get "underlying_spot_price").bind Json.asF64).map
    rupeesToPaise).getD 0

/-- The strikes of a chain by price; strikes of one price stay in order. -/
def sortedStrikes (chain : List Json) : List Strike :=
  (chain.filterMap strikeOf).mergeSort fun a b => a.strikePaise ≤ b.strikePaise

/-- The strikes of a ladder: the 11 nearest the spot, if there is one and there are more. -/
def trimmedStrikes (chain : List Json) : List Strike :=
  let spot := spotPaise chain
  let strikes := sortedStrikes chain
  if 0 < spot ∧ 11 < strikes.length then
    ((strikes.mergeSort fun a b => (a.strikePaise - spot).abs ≤ (b.strikePaise - spot).abs).take
      11).mergeSort fun a b => a.strikePaise ≤ b.strikePaise
  else strikes

/-- `underlying_display`. -/
def underlyingDisplay (instrumentKey : String) : String :=
  (afterFirst '|' instrumentKey).getD instrumentKey

/-- `char::is_whitespace`. -/
def isWhitespace (c : Char) : Bool :=
  let n := c.toNat
  (9 ≤ n && n ≤ 13) || n = 0x20 || n = 0x85 || n = 0xA0 || n = 0x1680 ||
    (0x2000 ≤ n && n ≤ 0x200A) || n = 0x2028 || n = 0x2029 || n = 0x202F || n = 0x205F || n = 0x3000

/-- `subject_token`. -/
def subjectToken (display : String) : String :=
  String.ofList (display.toList.filter fun c => !isWhitespace c)

/-- A ladder as it is published. -/
structure Ladder where
  subject : String
  symbol : String
  expiry : String
  strikes : List Strike
  tsNs : Int64

/-- The payload of a ladder. -/
def Ladder.toJson (ladder : Ladder) : Json :=
  .obj [("kind", .str "oi"),
    ("data", .obj [("symbol", .str ladder.symbol), ("expiry", .str ladder.expiry),
      ("strikes", .arr (ladder.strikes.map Strike.toJson)), ("ts_ns", .ofI64 ladder.tsNs)])]

/-- `publish_oi`: an empty chain publishes nothing. -/
def publishOi (underlying expiry : String) (chain : List Json) (tsNs : Int64) : Option Ladder :=
  if chain.isEmpty then none
  else some
    { subject := "md.oi." ++ subjectToken (underlyingDisplay underlying)
      symbol := underlyingDisplay underlying
      expiry := expiry
      strikes := trimmedStrikes chain
      tsNs := tsNs }

/-- What the poller of options meets at an underlying: the day, and the replies to the requests it
may make. -/
structure OiVisit where
  underlying : String
  today : String
  contracts : Reply
  chain : Reply
  tsNs : Int64

/-- One underlying in a pass of `run_oi_loop`: the ladder it publishes, and the cache after it. -/
def oiVisit (cache : Map String String) (visit : OiVisit) : Option Ladder × Map String String :=
  match resolveExpiry visit.underlying visit.today visit.contracts cache with
  | .error _ => (none, cache)
  | .ok (expiry, cache) => match fetchOptionChain visit.chain with
    | .ok chain => (publishOi visit.underlying expiry chain visit.tsNs, cache)
    | .error _ => (none, cache.erase visit.underlying)

/-! ## The items of a response -/

/-- The item of an instrument: the last entry that names it, or the one under its colon form. -/
def chosenItem (data : List (String × Json)) (instrument : String) : Option Json :=
  ((data.reverse.find? fun entry => instrumentToken entry.2 = some instrument).map
      fun entry => withDataKey entry.1 entry.2).or
    ((data.lookup (colonForm instrument)).map (withDataKey (colonForm instrument)))

theorem lookup_indexByToken (instruments : List String) (out : Map String Json)
    (entry : String × Json) (instrument : String) :
    (indexByToken instruments out entry).lookup instrument
      = if instrument ∈ instruments ∧ instrumentToken entry.2 = some instrument then
          some (withDataKey entry.1 entry.2)
        else out.lookup instrument := by
  unfold indexByToken
  cases instrumentToken entry.2 with
  | none => simp
  | some token =>
    by_cases hsame : token = instrument
    · subst hsame
      by_cases hmem : token ∈ instruments
      · simp [hmem]
      · simp [hmem]
    · by_cases hmem : token ∈ instruments
      · simp [hmem, hsame, AList.lookup_insert_ne (Ne.symm hsame)]
      · simp [hmem, hsame]

theorem lookup_foldl_indexByToken (instruments : List String) (data : List (String × Json))
    (instrument : String) :
    (data.foldl (indexByToken instruments) ∅).lookup instrument
      = if instrument ∈ instruments then
          (data.reverse.find? fun entry => instrumentToken entry.2 = some instrument).map
            fun entry => withDataKey entry.1 entry.2
        else none := by
  induction data using List.reverseRecOn with
  | nil => rw [List.reverse_nil, List.find?_nil, Option.map_none, ite_self]; rfl
  | append_singleton data entry ih =>
    rw [List.foldl_append, List.foldl_cons, List.foldl_nil, lookup_indexByToken, ih,
      List.reverse_append, List.reverse_singleton, List.singleton_append, List.find?_cons]
    by_cases htoken : instrumentToken entry.2 = some instrument
    · simp only [htoken, and_true, decide_true, Option.map_some]
      split_ifs <;> rfl
    · simp [htoken]

theorem lookup_fallBackToKey (data : List (String × Json)) (out : Map String Json)
    (first instrument : String) :
    (fallBackToKey data out first).lookup instrument
      = if instrument = first then (out.lookup instrument).or
          ((data.lookup (colonForm instrument)).map (withDataKey (colonForm instrument)))
        else out.lookup instrument := by
  unfold fallBackToKey
  by_cases hin : first ∈ out
  · rw [if_pos hin]
    split_ifs with hsame
    · obtain ⟨v, hv⟩ := Option.isSome_iff_exists.mp (AList.lookup_isSome.mpr hin)
      rw [hsame, hv, Option.some_or]
    · rfl
  · rw [if_neg hin]
    by_cases hsame : instrument = first
    · subst hsame
      rw [if_pos rfl, AList.lookup_eq_none.mpr hin, Option.none_or]
      cases data.lookup (colonForm instrument) with
      | none => exact AList.lookup_eq_none.mpr hin
      | some v => exact AList.lookup_insert _
    · rw [if_neg hsame]
      cases data.lookup (colonForm first) with
      | none => rfl
      | some v => exact AList.lookup_insert_ne hsame

theorem lookup_foldl_fallBackToKey (data : List (String × Json)) (out : Map String Json)
    (instruments : List String) (instrument : String) :
    (instruments.foldl (fallBackToKey data) out).lookup instrument
      = (out.lookup instrument).or (if instrument ∈ instruments then
          (data.lookup (colonForm instrument)).map (withDataKey (colonForm instrument))
        else none) := by
  induction instruments generalizing out with
  | nil => rw [if_neg List.not_mem_nil, Option.or_none, List.foldl_nil]
  | cons first instruments ih =>
    rw [List.foldl_cons, ih, lookup_fallBackToKey]
    by_cases hsame : instrument = first
    · have hmem : instrument ∈ first :: instruments := List.mem_cons.mpr (.inl hsame)
      rw [if_pos hsame, if_pos hmem, Option.or_assoc]
      split_ifs
      · rw [Option.or_self]
      · rw [Option.or_none]
    · simp only [if_neg hsame, List.mem_cons, or_iff_right hsame]

/-- The map holds the item of each instrument that has one, and nothing else. -/
theorem lookup_extractDataMap {body : Json} {data : List (String × Json)}
    (hdata : body.get "data" = some (.obj data)) (instruments : List String) :
    ∃ items, extractDataMap body instruments = .ok items ∧ ∀ instrument,
      items.lookup instrument
        = if instrument ∈ instruments then chosenItem data instrument else none := by
  refine ⟨_, by rw [extractDataMap, hdata], fun instrument => ?_⟩
  rw [lookup_foldl_fallBackToKey, lookup_foldl_indexByToken]
  split_ifs
  · rfl
  · rfl

/-- The keys of the ticks among some outputs. -/
def tickKeys (outputs : List LtpOutput) : List String :=
  outputs.filterMap fun
    | .connection _ => none
    | .tick key _ => some key

/-- **A poll that answers hands on one tick for each instrument that the response has an item for**,
and none for anything that was not asked for. -/
theorem ticks_of_poll (instruments : List String) (consecutiveErrors : UInt32) (poll : LtpPoll)
    (body : Json) (data : List (String × Json)) (hreply : poll.reply = .ok body)
    (hdata : body.get "data" = some (.obj data)) :
    (tickKeys (ltpTurn instruments consecutiveErrors poll).1).Nodup ∧ ∀ key item,
      LtpOutput.tick key item ∈ (ltpTurn instruments consecutiveErrors poll).1 ↔
        key ∈ instruments ∧ chosenItem data key = some item := by
  obtain ⟨items, hitems, hlookup⟩ := lookup_extractDataMap hdata instruments
  have hfetch : fetchLtp instruments poll.reply = .ok items := by
    rw [hreply]
    exact hitems
  have hturn : (ltpTurn instruments consecutiveErrors poll).1
      = (if 0 < consecutiveErrors then [.connection (publishConnected poll.stamp)] else [])
        ++ items.entries.map fun entry => LtpOutput.tick entry.1 entry.2 := by
    rw [ltpTurn, hfetch]
  rw [hturn]
  constructor
  · have hkeys : tickKeys ((if 0 < consecutiveErrors then
        [.connection (publishConnected poll.stamp)] else [])
          ++ items.entries.map fun entry => LtpOutput.tick entry.1 entry.2) = items.keys := by
      rw [tickKeys, List.filterMap_append, List.filterMap_map]
      have hhead : (if 0 < consecutiveErrors then
          [LtpOutput.connection (publishConnected poll.stamp)] else []).filterMap
            (fun | .connection _ => none | .tick key _ => some key) = ([] : List String) := by
        split_ifs <;> rfl
      rw [hhead, List.nil_append, AList.keys, List.keys]
      exact congrFun List.filterMap_eq_map items.entries
    rw [hkeys]
    exact items.keys_nodup
  · intro key item
    have hmem : LtpOutput.tick key item ∈ (if 0 < consecutiveErrors then
        [.connection (publishConnected poll.stamp)] else [])
          ++ items.entries.map (fun entry => LtpOutput.tick entry.1 entry.2)
        ↔ items.lookup key = some item := by
      rw [List.mem_append, or_iff_right (by split_ifs <;> simp), List.mem_map, ← Option.mem_def,
        AList.mem_lookup_iff]
      constructor
      · rintro ⟨entry, hentry, hsame⟩
        cases hsame
        exact hentry
      · exact fun h => ⟨_, h, rfl⟩
    rw [hmem, hlookup]
    split_ifs with hin
    · exact (and_iff_right hin).symm
    · exact iff_of_false (fun h => by cases h) fun h => hin h.1

/-- A response that names one instrument by its token, one by its colon form only, and one that was
not asked for. -/
def relianceData : List (String × Json) :=
  [("NSE_EQ:RELIANCE", .obj [("instrument_token", .str "NSE_EQ|INE002A01018"),
    ("last_price", .num (.posInt 2450))]),
   ("NSE_INDEX:Nifty 50", .obj [("last_price", .num (.posInt 22130))]),
   ("NSE_EQ:TCS", .obj [("instrument_token", .str "NSE_EQ|INE467B01029"),
    ("last_price", .num (.posInt 3900))])]

/-- Instruments of a poll: the index, the share, and a share that the response leaves out. -/
def polledInstruments : List String :=
  ["NSE_INDEX|Nifty 50", "NSE_EQ|INE002A01018", "NSE_EQ|INE009A01021"]

theorem ticks_of_relianceData :
    let poll : LtpPoll := ⟨.ok (.obj [("data", .obj relianceData)]), ⟨0, ""⟩⟩
    (tickKeys (ltpTurn polledInstruments 2 poll).1).Nodup ∧ ∀ key item,
      LtpOutput.tick key item ∈ (ltpTurn polledInstruments 2 poll).1 ↔
        key ∈ polledInstruments ∧ chosenItem relianceData key = some item :=
  ticks_of_poll _ 2 _ _ relianceData rfl rfl

/-- The index comes by its colon form and the left-out share not at all. -/
example : (polledInstruments.map fun key => (chosenItem relianceData key).isSome) =
    [true, true, false] := by
  decide +kernel

end Hedge.MarketData.Upstox
