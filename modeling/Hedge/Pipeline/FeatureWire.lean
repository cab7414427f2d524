import Hedge.Common.Layout
import Hedge.Core.Market

/-!
# Feature snapshots on the wire

Reference: `hedge-features/src/engine.rs` (`encode`), `hedge-signals/src/bin/main.rs`
(`decode_feature_snapshot`).

The features service writes a snapshot field by field, the signals service reads it back at fixed
offsets. The comments on both sides list fewer fields than are written, and a size of 101 bytes; the
two functions agree on 23 fields in 141 bytes. Floats are kept as their bit patterns here, so that a
NaN and a negative zero are told apart; `FeatureBits.values` reads them.
-/

namespace Hedge.Pipeline

open Hedge Hedge.Common

/-- `FeatureSnapshot`, with the bit patterns of its floats. -/
structure FeatureBits where
  correlationId : Vector UInt8 16
  symbol : UInt32
  price : Int64
  vwap : Int64
  atr : Int64
  emaFast : Int64
  emaSlow : Int64
  emaTrend : Int64
  emaSlope : UInt32
  realizedVol : UInt32
  momentum : UInt32
  rsi : UInt32
  adx : UInt32
  donchianUpper : Int64
  donchianLower : Int64
  rollingDelta : Int64
  liquidityImbalance : UInt32
  orderflowStrength : UInt32
  candleStructure : UInt8
  breakoutPressure : UInt32
  compressionZone : UInt32
  liquiditySweep : UInt32
  tsNs : UInt64
deriving DecidableEq

/-- The snapshot with the values of its floats. -/
def FeatureBits.values (snap : FeatureBits) : FeatureSnapshot where
  correlationId := snap.correlationId
  symbol := snap.symbol
  price := snap.price
  vwap := snap.vwap
  atr := snap.atr
  emaFast := snap.emaFast
  emaSlow := snap.emaSlow
  emaTrend := snap.emaTrend
  emaSlope := f32OfBits snap.emaSlope
  realizedVol := f32OfBits snap.realizedVol
  momentum := f32OfBits snap.momentum
  rsi := f32OfBits snap.rsi
  adx := f32OfBits snap.adx
  donchianUpper := snap.donchianUpper
  donchianLower := snap.donchianLower
  rollingDelta := snap.rollingDelta
  liquidityImbalance := f32OfBits snap.liquidityImbalance
  orderflowStrength := f32OfBits snap.orderflowStrength
  candleStructure := snap.candleStructure
  breakoutPressure := f32OfBits snap.breakoutPressure
  compressionZone := f32OfBits snap.compressionZone
  liquiditySweep := f32OfBits snap.liquiditySweep
  tsNs := snap.tsNs

/-- `FEATURE_WIRE_SIZE`. -/
def featureWireSize : ℕ := 141

/-- The fields of a snapshot in the order in which they are written. -/
def featureFields (snap : FeatureBits) : List (List UInt8) :=
  [snap.correlationId.toList, leU32 snap.symbol, leI64 snap.price, leI64 snap.vwap, leI64 snap.atr,
    leI64 snap.emaFast, leI64 snap.emaSlow, leI64 snap.emaTrend, leU32 snap.emaSlope,
    leU32 snap.realizedVol, leU32 snap.momentum, leU32 snap.rsi, leU32 snap.adx,
    leI64 snap.donchianUpper, leI64 snap.donchianLower, leI64 snap.rollingDelta,
    leU32 snap.liquidityImbalance, leU32 snap.orderflowStrength, [snap.candleStructure],
    leU32 snap.breakoutPressure, leU32 snap.compressionZone, leU32 snap.liquiditySweep,
    leU64 snap.tsNs]

/-- `encode`. -/
def encode (snap : FeatureBits) : List UInt8 := (featureFields snap).flatten

/-- The fields of a record that `decode_feature_snapshot` reads. -/
def readFeatures (bytes : List UInt8) : FeatureBits where
  correlationId := Vector.ofFn fun i => (slice bytes 0 16).getD i.val 0
  symbol := readU32 (slice bytes 16 4)
  price := readI64 (slice bytes 20 8)
  vwap := readI64 (slice bytes 28 8)
  atr := readI64 (slice bytes 36 8)
  emaFast := readI64 (slice bytes 44 8)
  emaSlow := readI64 (slice bytes 52 8)
  emaTrend := readI64 (slice bytes 60 8)
  emaSlope := readU32 (slice bytes 68 4)
  realizedVol := readU32 (slice bytes 72 4)
  momentum := readU32 (slice bytes 76 4)
  rsi := readU32 (slice bytes 80 4)
  adx := readU32 (slice bytes 84 4)
  donchianUpper := readI64 (slice bytes 88 8)
  donchianLower := readI64 (slice bytes 96 8)
  rollingDelta := readI64 (slice bytes 104 8)
  liquidityImbalance := readU32 (slice bytes 112 4)
  orderflowStrength := readU32 (slice bytes 116 4)
  candleStructure := bytes.getD 120 0
  breakoutPressure := readU32 (slice bytes 121 4)
  compressionZone := readU32 (slice bytes 125 4)
  liquiditySweep := readU32 (slice bytes 129 4)
  tsNs := readU64 (slice bytes 133 8)

/-- `decode_feature_snapshot`. -/
def decodeFeatureSnapshot (bytes : List UInt8) : Option FeatureBits :=
  if bytes.length ≠ 141 then none else some (readFeatures bytes)

/-! ## The layout -/

/-- The widths of the fields. -/
def featureWidths : List ℕ :=
  [16, 4, 8, 8, 8, 8, 8, 8, 4, 4, 4, 4, 4, 8, 8, 8, 4, 4, 1, 4, 4, 4, 8]

theorem sum_featureWidths : featureWidths.sum = featureWireSize := rfl

theorem length_featureFields (snap : FeatureBits) :
    (featureFields snap).map List.length = featureWidths := by
  simp [featureFields, featureWidths]

@[simp] theorem length_encode (snap : FeatureBits) : (encode snap).length = featureWireSize := by
  rw [encode, List.length_flatten, length_featureFields, sum_featureWidths]

/-- The slices that the decoder reads. -/
def featureSlices (bytes : List UInt8) : List (List UInt8) :=
  [slice bytes 0 16, slice bytes 16 4, slice bytes 20 8, slice bytes 28 8, slice bytes 36 8,
    slice bytes 44 8, slice bytes 52 8, slice bytes 60 8, slice bytes 68 4, slice bytes 72 4,
    slice bytes 76 4, slice bytes 80 4, slice bytes 84 4, slice bytes 88 8, slice bytes 96 8,
    slice bytes 104 8, slice bytes 112 4, slice bytes 116 4, slice bytes 120 1, slice bytes 121 4,
    slice bytes 125 4, slice bytes 129 4, slice bytes 133 8]

/-- The decoder reads at the offsets of the fields, one after the other. -/
theorem featureSlices_eq_chunks (bytes : List UInt8) :
    featureSlices bytes = chunks featureWidths bytes := by
  simp only [featureSlices, featureWidths, chunks, slice, List.drop_drop, List.drop_zero,
    Nat.reduceAdd]

/-- The bytes of an identifier that was read. -/
theorem toList_readId {bytes : List UInt8} (h : bytes.length = 16) :
    (Vector.ofFn fun i : Fin 16 => bytes.getD i.val 0).toList = bytes := by
  rw [toList_ofFn_getD, padded_of_le h.ge, List.take_of_length_le h.le]

/-! ## Round trips -/

/-- What was written is read back. -/
theorem decodeFeatureSnapshot_encode (snap : FeatureBits) :
    decodeFeatureSnapshot (encode snap) = some snap := by
  have hlength : (encode snap).length = 141 := length_encode snap
  have hslices : featureSlices (encode snap) = featureFields snap := by
    rw [featureSlices_eq_chunks, encode, chunks_flatten (length_featureFields snap)]
  rw [featureSlices, slice_one (by omega), featureFields] at hslices
  simp only [List.cons.injEq, and_true] at hslices
  obtain ⟨hcid, hsymbol, hprice, hvwap, hatr, hfast, hslow, htrend, hslope, hvol, hmomentum, hrsi,
    hadx, hupper, hlower, hdelta, himbalance, hstrength, hcandle, hbreakout, hzone, hsweep, hts⟩ :=
    hslices
  have hid : (Vector.ofFn fun i : Fin 16 => (slice (encode snap) 0 16).getD i.val 0)
      = snap.correlationId := by
    apply Vector.toList_inj.mp
    rw [toList_readId (by rw [hcid]; simp), hcid]
  rw [decodeFeatureSnapshot, if_neg (not_not.mpr hlength), readFeatures, hid, hsymbol, hprice,
    hvwap, hatr, hfast, hslow, htrend, hslope, hvol, hmomentum, hrsi, hadx, hupper, hlower, hdelta,
    himbalance, hstrength, hcandle, hbreakout, hzone, hsweep, hts]
  simp only [readU32_leU32, readI64_leI64, readU64_leU64]

/-- The fields of what was read are the slices. -/
theorem featureFields_readFeatures {bytes : List UInt8} (h : bytes.length = 141) :
    featureFields (readFeatures bytes) = featureSlices bytes := by
  have hslice : ∀ off n : ℕ, off + n ≤ 141 → (slice bytes off n).length = n :=
    fun off n hin => length_slice (h ▸ hin)
  rw [featureFields, featureSlices, slice_one (by omega)]
  simp (disch := exact hslice _ _ (by decide)) only [readFeatures, toList_readId, leU32_readU32,
    leI64_readI64, leU64_readU64]

/-- Writing what was read gives the bytes back. -/
theorem encode_readFeatures {bytes : List UInt8} (h : bytes.length = 141) :
    encode (readFeatures bytes) = bytes := by
  rw [encode, featureFields_readFeatures h, featureSlices_eq_chunks,
    flatten_chunks (h.trans sum_featureWidths.symm)]

/-- Snapshots survive the wire, and every record of the right length is the record of a snapshot. -/
theorem feature_wire_round_trip :
    (∀ snap : FeatureBits, decodeFeatureSnapshot (encode snap) = some snap)
      ∧ (∀ snap : FeatureBits, (encode snap).length = 141)
      ∧ (∀ bytes : List UInt8, decodeFeatureSnapshot bytes = none ↔ bytes.length ≠ 141)
      ∧ ∀ bytes : List UInt8,
          (decodeFeatureSnapshot bytes).map encode = if bytes.length = 141 then some bytes else none
    := by
  refine ⟨decodeFeatureSnapshot_encode, length_encode, fun bytes => ?none, fun bytes => ?again⟩
  case none =>
    unfold decodeFeatureSnapshot
    by_cases h : bytes.length = 141 <;> simp [h]
  case again =>
    unfold decodeFeatureSnapshot
    by_cases h : bytes.length = 141
    · simp [h, encode_readFeatures h]
    · simp [h]

end Hedge.Pipeline
