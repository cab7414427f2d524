import Hedge.Common.FloatOps
import Hedge.Common.JsonText
import Hedge.Gateway.Events
import Hedge.MarketData.Ticks

/-!
# The decoder in front of the cockpit

Reference: `hedge-ui-gateway/src/decoder_shim.rs`, `tick_to_raw_bytes` of
`hedge-market-data/src/engine.rs`.

A payload is read as JSON first and by a binary layout only if that fails. The layout of a tick is
selected by a length of 77 bytes, while a record has 85. A record that happens to be a JSON text is
too short to name four numbers of the size its own bytes then have. The JSON reader is an argument.
-/

namespace Hedge.Gateway

open Hedge Hedge.Common Hedge.MarketData
open JsonText (TextByte size sizeFields sizeFields_le_of_lookups)

/-! ## Model -/

/-- The part of a subject after a start, if it has it. -/
def stripStart (subject start : String) : Option String :=
  if startsWith subject start then some (String.ofList (subject.toList.drop start.length)) else none

/-- A cell of the heatmap. -/
structure HeatmapCell where
  pricePaise : Int64
  buyQty : UInt64
  sellQty : UInt64

/-- The cell as JSON. -/
def HeatmapCell.toJson (cell : HeatmapCell) : Json :=
  .obj [("price_paise", .ofI64 cell.pricePaise), ("buy_qty", .ofU64 cell.buyQty),
    ("sell_qty", .ofU64 cell.sellQty)]

/-- The cells of a row: one for each side with a quantity. -/
def rowCells (row : Json) : List HeatmapCell :=
  let bidPrice := ((row.get "bid_price_paise").bind Json.asI64).getD 0
  let askPrice := ((row.get "ask_price_paise").bind Json.asI64).getD 0
  let bidQty := ((row.get "bid_qty").bind Json.asU64).getD 0
  let askQty := ((row.get "ask_qty").bind Json.asU64).getD 0
  (if bidQty > 0 then [⟨bidPrice, bidQty, 0⟩] else [])
    ++ if askQty > 0 then [⟨askPrice, 0, askQty⟩] else []

/-- `Value::as_array`. -/
def asArray : Json → Option (List Json)
  | .arr elems => some elems
  | _ => none

/-- The cells of a heatmap by price; cells of one price stay in order. -/
def heatmapCells (v : Json) : List HeatmapCell :=
  match (v.get "rows").bind asArray with
  | some rows => (rows.flatMap rowCells).mergeSort fun a b => a.pricePaise ≤ b.pricePaise
  | none => []

/-- `decode_tick`. -/
def decodeTickJson (bytes : List UInt8) (subject : String) : Json :=
  .obj [("kind", .str "tick"),
    ("data", .obj [("symbol", .str ((stripStart subject "md.tick.").getD "UNKNOWN")),
      ("ltp_paise", .ofI64 (readI64 (slice bytes 21 8))),
      ("bid_paise", .ofI64 (readI64 (slice bytes 29 8))),
      ("ask_paise", .ofI64 (readI64 (slice bytes 37 8))),
      ("ts_recv_ns", .ofU64 (readU64 (slice bytes 69 8)))])]

/-- `decode_signal`. -/
def decodeSignalJson (bytes : List UInt8) : Json :=
  .obj [("kind", .str "signal"),
    ("data", .obj [("strategy", .ofU64 (bytes.getD 16 0).toUInt64),
      ("symbol", .ofU32 (readU32 (slice bytes 17 4))),
      ("side", .ofU64 (bytes.getD 21 0).toUInt64),
      ("confidence", .ofF32 (readF32 (slice bytes 26 4))),
      ("ts_ns", .ofU64 (readU64 (slice bytes 58 8)))])]

/-- A digit of base 64. -/
def base64Char (n : ℕ) : Char :=
  "ABCDEFGHIJKLMNOPQRSTUVWXYZabcdefghijklmnopqrstuvwxyz0123456789+/".toList.getD n '='

/-- Base 64 with the standard alphabet and padding. -/
def base64Encode : List UInt8 → List Char
  | [] => []
  | [a] => [base64Char (a.toNat / 4), base64Char (a.toNat % 4 * 16), '=', '=']
  | [a, b] =>
    [base64Char (a.toNat / 4), base64Char (a.toNat % 4 * 16 + b.toNat / 16),
      base64Char (b.toNat % 16 * 4), '=']
  | a :: b :: c :: rest =>
    [base64Char (a.toNat / 4), base64Char (a.toNat % 4 * 16 + b.toNat / 16),
      base64Char (b.toNat % 16 * 4 + c.toNat / 64), base64Char (c.toNat % 64)] ++ base64Encode rest

/-- `decode_payload_shim`. -/
def decodePayloadShim (parse : List UInt8 → Option Json) (subject : String) (bytes : List UInt8) :
    Json :=
  match parse bytes with
  | some v =>
    if startsWith subject "of.heatmap." then
      .obj [("kind", .str "heatmap"),
        ("data", .obj [("symbol", .str ((stripStart subject "of.heatmap.").getD "UNKNOWN")),
          ("cells", .arr ((heatmapCells v).map HeatmapCell.toJson)),
          ("ts_ns", (v.get "ts_ns").getD (.ofI64 0))])]
    else if startsWith subject "of.event." then .obj [("kind", .str "event"), ("data", v)]
    else v
  | none =>
    if startsWith subject "md.tick." && bytes.length = 77 then decodeTickJson bytes subject
    else if startsWith subject "sig.emitted" && bytes.length = 66 then decodeSignalJson bytes
    else .obj [("_raw_b64", .str (String.ofList (base64Encode bytes)))]

/-- The cockpit sees an envelope of the tick. -/
def ShowsTick (v : Json) (tick : Tick) : Prop :=
  v.get "kind" = some (.str "tick") ∧ ∃ data, v.get "data" = some data ∧
    (data.get "ltp_paise").bind Json.asI64 = some tick.ltpPaise ∧
    (data.get "bid_paise").bind Json.asI64 = some tick.bidPaise ∧
    (data.get "ask_paise").bind Json.asI64 = some tick.askPaise ∧
    (data.get "ts_recv_ns").bind Json.asU64 = some tick.tsRecvNs

example : String.ofList (base64Encode [0x68, 0x65, 0x64, 0x67]) = "aGVkZw==" := by decide

/-! ## Numbers of a record that is a text -/

/-- A number whose upper byte occurs in texts has at least eighteen digits. -/
theorem eighteen_le_length_toDigits {n : ℕ} (h : 8 * 256 ^ 7 ≤ n) :
    18 ≤ (Nat.toDigits 10 n).length := by
  by_contra hlen
  have hlt := (Nat.length_toDigits_le_iff (by decide) (by decide)).mp
    (show (Nat.toDigits 10 n).length ≤ 17 by omega)
  omega

theorem top_of_textByte {n : UInt64} (h : ∀ b ∈ leU64 n, TextByte b) :
    9 * 256 ^ 7 ≤ n.toNat ∧ n.toNat < 248 * 256 ^ 7 := by
  obtain ⟨hlow, hhigh⟩ := h _ (top_mem_leU64 n)
  have hlt : n.toNat < 2 ^ 64 := n.toNat_lt
  rw [UInt8.toNat_ofNat', Nat.mod_eq_of_lt (by omega)] at hlow hhigh
  exact ⟨by omega, by omega⟩

theorem size_of_asU64 {v : Json} {n : UInt64} (hbytes : ∀ b ∈ leU64 n, TextByte b)
    (hv : v.asU64 = some n) : 18 ≤ size v := by
  have hlow := (top_of_textByte hbytes).1
  unfold Json.asU64 at hv
  split at hv
  · cases hv
    exact eighteen_le_length_toDigits (by omega)
  · cases hv

theorem size_of_asI64 {v : Json} {n : Int64} (hbytes : ∀ b ∈ leI64 n, TextByte b)
    (hv : v.asI64 = some n) : 18 ≤ size v := by
  obtain ⟨hlow, hhigh⟩ := top_of_textByte hbytes
  unfold Json.asI64 at hv
  split at hv
  · split_ifs at hv
    cases hv
    rw [UInt64.toUInt64_toInt64] at hlow
    exact eighteen_le_length_toDigits (by omega)
  · cases hv
    -- A negative number is as far below zero as its bytes are below `2 ^ 64`.
    have hint : n.toInt = if 2 * n.toUInt64.toNat < 2 ^ 64 then (n.toUInt64.toNat : ℤ)
        else n.toUInt64.toNat - (2 ^ 64 : ℕ) := BitVec.toInt_eq_toNat_cond n.toBitVec
    refine eighteen_le_length_toDigits ?_
    rw [hint]
    split_ifs <;> omega
  · cases hv

/-- What an object has under different names is part of its size. -/
theorem size_of_gets {v : Json} {first : String × Json} {wanted : List (String × Json)}
    (hnodup : ((first :: wanted).map Prod.fst).Nodup)
    (h : ∀ field ∈ first :: wanted, v.get field.1 = some field.2) :
    sizeFields (first :: wanted) + 2 ≤ size v := by
  cases v with
  | obj fields =>
    have hle := sizeFields_le_of_lookups hnodup h
    rw [size]
    omega
  | _ => exact absurd (h first List.mem_cons_self) (by simp [Json.get])

/-- An envelope of a tick whose bytes occur in texts is larger than a record. -/
theorem size_of_showsTick {v : Json} {tick : Tick} (hbytes : ∀ b ∈ tickToRawBytes tick, TextByte b)
    (h : ShowsTick v tick) : tickWireSize < size v := by
  obtain ⟨-, data, hdata, hltp, hbid, hask, hrecv⟩ := h
  have hfield : ∀ field ∈ tickFields tick, ∀ b ∈ field, TextByte b :=
    fun field hmem b hb => hbytes b (List.mem_flatten.mpr ⟨field, hmem, hb⟩)
  obtain ⟨ltp, hltpGet, hltp⟩ := Option.bind_eq_some_iff.mp hltp
  obtain ⟨bid, hbidGet, hbid⟩ := Option.bind_eq_some_iff.mp hbid
  obtain ⟨ask, haskGet, hask⟩ := Option.bind_eq_some_iff.mp hask
  obtain ⟨recv, hrecvGet, hrecv⟩ := Option.bind_eq_some_iff.mp hrecv
  have hltpSize := size_of_asI64 (hfield _ (by simp [tickFields])) hltp
  have hbidSize := size_of_asI64 (hfield _ (by simp [tickFields])) hbid
  have haskSize := size_of_asI64 (hfield _ (by simp [tickFields])) hask
  have hrecvSize := size_of_asU64 (hfield _ (by simp [tickFields])) hrecv
  have houter := @size_of_gets v ("data", data) [] (by simp) (by simpa using hdata)
  have hinner := @size_of_gets data ("ltp_paise", ltp)
    [("bid_paise", bid), ("ask_paise", ask), ("ts_recv_ns", recv)] (by simp)
    (by simp [hltpGet, hbidGet, haskGet, hrecvGet])
  simp only [sizeFields] at houter hinner
  rw [tickWireSize]
  omega

/-! ## Ticks of the market data engine -/

theorem decodePayloadShim_tickToRawBytes (parse : List UInt8 → Option Json) (s : String)
    (tick : Tick) : decodePayloadShim parse ("md.tick." ++ s) (tickToRawBytes tick) =
      (parse (tickToRawBytes tick)).getD
        (.obj [("_raw_b64", .str (String.ofList (base64Encode (tickToRawBytes tick))))]) := by
  have hheatmap : startsWith ("md.tick." ++ s) "of.heatmap." = false := by
    simp [startsWith, List.isPrefixOf]
  have hevent : startsWith ("md.tick." ++ s) "of.event." = false := by
    simp [startsWith, List.isPrefixOf]
  have hsignal : startsWith ("md.tick." ++ s) "sig.emitted" = false := by
    simp [startsWith, List.isPrefixOf]
  have hlength : tickWireSize ≠ 77 := by decide
  rw [decodePayloadShim]
  cases parse (tickToRawBytes tick) with
  | none => simp [hsignal, hlength]
  | some v => simp [hheatmap, hevent]

/-- No record of a tick is shown as the tick. -/
theorem never_showsTick {parse : List UInt8 → Option Json} (hparse : ReadsTexts parse)
    (tick : Tick) (s : String) :
    ¬ ShowsTick (decodePayloadShim parse ("md.tick." ++ s) (tickToRawBytes tick)) tick := by
  intro hshows
  rw [decodePayloadShim_tickToRawBytes] at hshows
  cases hread : parse (tickToRawBytes tick) with
  | none =>
    rw [hread] at hshows
    exact absurd hshows.1 (by simp)
  | some v =>
    rw [hread] at hshows
    have htext := hparse _ _ hread
    have hlarge := size_of_showsTick (textByte_of_isText htext) hshows
    have hsmall := size_le_of_isText htext
    rw [length_tickToRawBytes] at hsmall
    exact absurd hsmall (Nat.not_le.mpr hlarge)

/-- A tick of the market data engine whose record is not JSON. -/
def unshownTick : Tick :=
  ⟨Vector.replicate 16 0, 1, 0, 250000, 249950, 250050, 10, 5000, 4500, 1, 2⟩

theorem never_showsTick_unread :
    ¬ ShowsTick (decodePayloadShim (fun _ => none) ("md.tick." ++ "1")
      (tickToRawBytes unshownTick)) unshownTick :=
  never_showsTick readsTexts_none unshownTick "1"

/-- Whatever JSON reader is used, that tick is shown as an envelope without a kind. -/
theorem unshownTick_not_shown :
    (∀ parse : List UInt8 → Option Json, ReadsTexts parse →
      (decodePayloadShim parse ("md.tick." ++ "1") (tickToRawBytes unshownTick)).get "kind" = none) ∧
    ¬ ∀ parse : List UInt8 → Option Json, ReadsTexts parse → ∀ (tick : Tick) (s : String),
      ShowsTick (decodePayloadShim parse ("md.tick." ++ s) (tickToRawBytes tick)) tick := by
  have hkind : ∀ parse : List UInt8 → Option Json, ReadsTexts parse →
      (decodePayloadShim parse ("md.tick." ++ "1") (tickToRawBytes unshownTick)).get "kind"
        = none := by
    intro parse hparse
    have hzero : (0 : UInt8) ∈ tickToRawBytes unshownTick :=
      List.mem_flatten.mpr ⟨unshownTick.correlationId.toList, List.mem_cons_self, by decide⟩
    rw [decodePayloadShim_tickToRawBytes, hparse.eq_none hzero not_textByte_zero]
    simp
  refine ⟨hkind, fun h => ?_⟩
  have hshows := (h _ readsTexts_none unshownTick "1").1
  rw [hkind _ readsTexts_none] at hshows
  cases hshows

end Hedge.Gateway
