import Hedge.Common.Base64
import Hedge.Replay.Record

/-!
# The JSON form of a record

Reference: `hedge-replay/src/command.rs`.

The control plane shows a record with its payload as base64 text. The encoder is written inline, with
one expression for the full groups and one for each padding; `base64_lossless` checks all three
against the strict decoder.
-/

namespace Hedge.Replay

open Hedge.Common

/-! ## Encoding -/

/-- `TABLE`. -/
def base64Table : List Char :=
  ['A', 'B', 'C', 'D', 'E', 'F', 'G', 'H', 'I', 'J', 'K', 'L', 'M', 'N', 'O', 'P', 'Q', 'R', 'S',
    'T', 'U', 'V', 'W', 'X', 'Y', 'Z', 'a', 'b', 'c', 'd', 'e', 'f', 'g', 'h', 'i', 'j', 'k', 'l',
    'm', 'n', 'o', 'p', 'q', 'r', 's', 't', 'u', 'v', 'w', 'x', 'y', 'z', '0', '1', '2', '3', '4',
    '5', '6', '7', '8', '9', '+', '/']

/-- `TABLE[((n >> shift) & 0x3F) as usize]`; the index is below 64. -/
def base64Char (n shift : UInt32) : Char := base64Table.getD ((n >>> shift) &&& 0x3F).toNat '='

/-- The characters `base64_encode` pushes, group by group. -/
def base64Chars : List UInt8 → List Char
  | b0 :: b1 :: b2 :: rest =>
    let n := (b0.toUInt32 <<< 16) ||| (b1.toUInt32 <<< 8) ||| b2.toUInt32
    base64Char n 18 :: base64Char n 12 :: base64Char n 6 :: base64Char n 0 :: base64Chars rest
  | [b0] =>
    let n := b0.toUInt32 <<< 16
    [base64Char n 18, base64Char n 12, '=', '=']
  | [b0, b1] =>
    let n := (b0.toUInt32 <<< 16) ||| (b1.toUInt32 <<< 8)
    [base64Char n 18, base64Char n 12, base64Char n 6, '=']
  | [] => []

/-- `base64_encode`. -/
def base64Encode (input : List UInt8) : String := String.ofList (base64Chars input)

/-! ## Wire forms -/

/-- `AiSourceWire`. -/
inductive AiSourceWire where
  | ranking
  | regime
  | news
  | psychology
  | priority
  | journal
  | governance
  | other
  deriving DecidableEq, Repr

/-- `From<AISource>`. -/
def AiSourceWire.ofSource : AISource → AiSourceWire
  | .ranking => .ranking
  | .regime => .regime
  | .news => .news
  | .psychology => .psychology
  | .priority => .priority
  | .journal => .journal
  | .governance => .governance
  | .other => .other

/-- `RecordKindWire`. -/
inductive RecordKindWire where
  | tick
  | orderBook
  | openInterest
  | newsEvent
  | signalEmitted
  | riskDecision
  | orderSubmitted
  | orderModified
  | orderCancelled
  | fill
  | traderAction
  | aiDecision (source : AiSourceWire)
  | marketConditionSnapshot
  deriving DecidableEq, Repr

/-- `From<RecordKind>`. -/
def RecordKindWire.ofKind : RecordKind → RecordKindWire
  | .tick => .tick
  | .orderBook => .orderBook
  | .openInterest => .openInterest
  | .newsEvent => .newsEvent
  | .signalEmitted => .signalEmitted
  | .riskDecision => .riskDecision
  | .orderSubmitted => .orderSubmitted
  | .orderModified => .orderModified
  | .orderCancelled => .orderCancelled
  | .fill => .fill
  | .traderAction => .traderAction
  | .aiDecision source => .aiDecision (.ofSource source)
  | .marketConditionSnapshot => .marketConditionSnapshot

/-- `ReplayRecordWire`. -/
structure ReplayRecordWire where
  sessionId : UInt64
  sequenceNo : UInt64
  monotonicNs : UInt64
  wallclockUtc : Int64
  kind : RecordKindWire
  payloadB64 : String
  deriving DecidableEq, Repr

/-- `From<&ReplayRecord>`. -/
def ReplayRecordWire.ofRecord (r : ReplayRecord) : ReplayRecordWire where
  sessionId := r.sessionId
  sequenceNo := r.sequenceNo
  monotonicNs := r.monotonicNs
  wallclockUtc := r.wallclockUtc
  kind := .ofKind r.kind
  payloadB64 := base64Encode r.payload

/-! ## The characters of a group -/

/-- Each place of the table holds the character of its value. -/
theorem value_base64Table : ∀ k < 64, Base64.value (base64Table.getD k '=') = some k := by
  decide

/-- The character pushed for a shift stands for six bits of the word. -/
theorem value_base64Char {n shift : UInt32} {word v : ℕ} (k : ℕ) (hn : n.toNat = word)
    (hshift : shift.toNat = k) (hk : k < 32) (hv : word / 2 ^ k % 64 = v) :
    Base64.value (base64Char n shift) = some v := by
  have hindex : ((n >>> shift) &&& 0x3F).toNat = v := by
    rw [UInt32.toNat_and, UInt32.toNat_shiftRight, hn, hshift, Nat.mod_eq_of_lt hk,
      Nat.shiftRight_eq_div_pow, ← hv]
    exact Nat.and_two_pow_sub_one_eq_mod _ 6
  rw [base64Char, hindex, value_base64Table _ (by omega)]

theorem toNat_shiftLeft_sixteen (b : UInt8) : (b.toUInt32 <<< 16).toNat = b.toNat * 65536 := by
  have hb := b.toNat_lt
  rw [UInt32.toNat_shiftLeft, UInt8.toNat_toUInt32]
  show b.toNat <<< 16 % 2 ^ 32 = _
  rw [Nat.shiftLeft_eq]
  omega

theorem toNat_shiftLeft_eight (b : UInt8) : (b.toUInt32 <<< 8).toNat = b.toNat * 256 := by
  have hb := b.toNat_lt
  rw [UInt32.toNat_shiftLeft, UInt8.toNat_toUInt32]
  show b.toNat <<< 8 % 2 ^ 32 = _
  rw [Nat.shiftLeft_eq]
  omega

/-- Two bytes do not overlap in the word. -/
theorem toNat_word_two (b0 b1 : UInt8) :
    ((b0.toUInt32 <<< 16) ||| (b1.toUInt32 <<< 8)).toNat = b0.toNat * 65536 + b1.toNat * 256 := by
  have hb1 := b1.toNat_lt
  rw [UInt32.toNat_or, toNat_shiftLeft_sixteen, toNat_shiftLeft_eight]
  -- the low byte stays below the lowest bit of the high one, so the disjunction is their sum
  have hor := Nat.shiftLeft_add_eq_or_of_lt (show b1.toNat * 256 < 2 ^ 16 by omega) b0.toNat
  rw [Nat.shiftLeft_eq] at hor
  exact hor.symm

/-- Nor do three. -/
theorem toNat_word_three (b0 b1 b2 : UInt8) :
    ((b0.toUInt32 <<< 16) ||| (b1.toUInt32 <<< 8) ||| b2.toUInt32).toNat
      = b0.toNat * 65536 + b1.toNat * 256 + b2.toNat := by
  have hb2 := b2.toNat_lt
  rw [UInt32.toNat_or, toNat_word_two, UInt8.toNat_toUInt32]
  have hor := Nat.shiftLeft_add_eq_or_of_lt (show b2.toNat < 2 ^ 8 by omega)
    (b0.toNat * 256 + b1.toNat)
  rw [Nat.shiftLeft_eq] at hor
  have hword : (b0.toNat * 256 + b1.toNat) * 2 ^ 8 = b0.toNat * 65536 + b1.toNat * 256 := by ring
  rw [hword] at hor
  exact hor.symm

/-! ## The whole text -/

theorem length_base64Chars (input : List UInt8) :
    (base64Chars input).length = 4 * ((input.length + 2) / 3) := by
  induction input using base64Chars.induct with
  | case1 b0 b1 b2 rest ih =>
    simp only [base64Chars, List.length_cons, ih]
    omega
  | case2 b0 => simp [base64Chars]
  | case3 b0 b1 => simp [base64Chars]
  | case4 => rfl

/-- The decoder undoes the encoder on every group. -/
theorem decode_base64Chars (input : List UInt8) :
    Base64.decode (base64Chars input) = some input := by
  induction input using base64Chars.induct with
  | case1 b0 b1 b2 rest ih =>
    have hb0 := b0.toNat_lt
    have hb1 := b1.toNat_lt
    have hb2 := b2.toNat_lt
    have hword := toNat_word_three b0 b1 b2
    rw [base64Chars, Base64.decode_three b0 b1 b2
      (value_base64Char 18 hword rfl (by decide) (by omega))
      (value_base64Char 12 hword rfl (by decide) (by omega))
      (value_base64Char 6 hword rfl (by decide) (by omega))
      (value_base64Char 0 hword rfl (by decide) (by omega)), ih]
    rfl
  | case2 b0 =>
    have hb0 := b0.toNat_lt
    have hword := toNat_shiftLeft_sixteen b0
    rw [base64Chars, Base64.decode_one b0
      (value_base64Char 18 hword rfl (by decide) (by omega))
      (value_base64Char 12 hword rfl (by decide) (by omega))]
  | case3 b0 b1 =>
    have hb0 := b0.toNat_lt
    have hb1 := b1.toNat_lt
    have hword := toNat_word_two b0 b1
    rw [base64Chars, Base64.decode_two b0 b1
      (value_base64Char 18 hword rfl (by decide) (by omega))
      (value_base64Char 12 hword rfl (by decide) (by omega))
      (value_base64Char 6 hword rfl (by decide) (by omega))]
  | case4 => rfl

theorem base64Encode_injective : Function.Injective base64Encode := by
  intro x y h
  have hchars : base64Chars x = base64Chars y := String.ofList_injective h
  have hdecoded := decode_base64Chars x
  rw [hchars, decode_base64Chars y] at hdecoded
  exact (Option.some.inj hdecoded).symm

/-- For every byte string the text has four characters for each three bytes or part of them, and
the strict decoder returns the bytes; so the wire form of a record gives back its payload, and two
payloads never share an encoding. -/
theorem base64_lossless :
    (∀ x : List UInt8, (base64Encode x).length = 4 * ((x.length + 2) / 3) ∧
      Base64.decode (base64Encode x).toList = some x) ∧
    (∀ r : ReplayRecord,
      Base64.decode (ReplayRecordWire.ofRecord r).payloadB64.toList = some r.payload) ∧
    ∀ r r' : ReplayRecord, (ReplayRecordWire.ofRecord r).payloadB64
      = (ReplayRecordWire.ofRecord r').payloadB64 ↔ r.payload = r'.payload := by
  have hdecode : ∀ x : List UInt8, Base64.decode (base64Encode x).toList = some x := by
    intro x
    rw [base64Encode, String.toList_ofList]
    exact decode_base64Chars x
  refine ⟨fun x => ⟨?_, hdecode x⟩, fun r => hdecode r.payload, fun r r' => ?_⟩
  · rw [base64Encode, String.length_ofList]
    exact length_base64Chars x
  · exact base64Encode_injective.eq_iff

/-- The padding branches. -/
example : base64Encode [0x66] = "Zg==" ∧ base64Encode [0x66, 0x6f] = "Zm8=" ∧
    base64Encode [0x66, 0x6f, 0x6f, 0x62] = "Zm9vYg==" := by
  decide

/-! ## The whole record -/

theorem AiSourceWire.ofSource_injective : Function.Injective AiSourceWire.ofSource := by
  intro a b h
  cases a <;> cases b <;> first | rfl | cases h

theorem RecordKindWire.ofKind_injective : Function.Injective RecordKindWire.ofKind := by
  intro a b h
  cases a with
  | aiDecision source =>
    cases b with
    | aiDecision source' =>
      have hsource := RecordKindWire.aiDecision.inj h
      rw [AiSourceWire.ofSource_injective hsource]
    | _ => cases h
  | _ => cases b <;> first | rfl | cases h

/-- The wire form loses nothing of a record. -/
theorem ReplayRecordWire.ofRecord_injective : Function.Injective ReplayRecordWire.ofRecord := by
  intro r r' h
  obtain ⟨hsession, hsequence, hmonotonic, hwallclock, hkind, hpayload⟩ :=
    ReplayRecordWire.mk.inj h
  cases r
  cases r'
  simp only [ReplayRecord.mk.injEq]
  exact ⟨hsession, hsequence, hmonotonic, hwallclock, RecordKindWire.ofKind_injective hkind,
    base64Encode_injective hpayload⟩

end Hedge.Replay
