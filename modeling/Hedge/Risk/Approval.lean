import Hedge.Core.Types

/-!
# Approval tokens

Reference: `hedge-risk/src/approval.rs`.

A token is the HMAC-SHA256 tag of a 63-byte canonical form of the order intent and the three
engine-controlled fields. The `hmac` and `sha2` crates are outside the repository, so the keyed
function is a parameter `mac`; what is assumed of it stands where it is used.

The code has two writers of the canonical form: `push_canonical` appends to a vector, and the
signing path fills a stack array at explicit offsets. `writeCanonicalToArray_eq` shows the two
agree, and `pushCanonical_injective` that the layout determines every field.
-/

namespace Hedge.Risk

open Hedge.Common

/-- `ApprovalToken([u8; 32])`. -/
abbrev ApprovalToken := Vector UInt8 32

/-- Raw HMAC key bytes, shared by the signer and its paired verifier. -/
abbrev Key := List UInt8

/-- HMAC-SHA256: a key and a message to a 32-byte tag. -/
abbrev Mac := Key → List UInt8 → ApprovalToken

/-- The arguments of `ApprovalSigner::sign`. -/
structure Approval where
  intent : OrderIntent
  sizedQuantity : UInt64
  tsNs : UInt64
  sequence : UInt64
deriving DecidableEq

/-- `INTENT_CANONICAL_BYTES`. -/
def intentCanonicalBytes : ℕ := 63

/-- `push_canonical`: the canonical bytes, field after field. -/
def pushCanonical (a : Approval) : List UInt8 :=
  (CorrelationId.fromBeBytes a.intent.correlationId).toBeBytes ++
  (toBe 4 a.intent.symbol.toNat ++
  ([a.intent.side] ++
  (toBe 8 a.intent.quantity.toNat ++
  ([a.intent.orderType] ++
  (toBe 8 a.intent.limitPaise.toUInt64.toNat ++
  ([a.intent.exchange.toUInt8] ++
  (toBe 8 a.sizedQuantity.toNat ++
  (toBe 8 a.tsNs.toNat ++
  toBe 8 a.sequence.toNat))))))))

/-- `write_canonical_to_array`: the same bytes written into a zeroed array at running offsets. -/
def writeCanonicalToArray (a : Approval) : List UInt8 :=
  let buf := List.replicate intentCanonicalBytes 0
  let buf := writeSlice buf 0 (CorrelationId.fromBeBytes a.intent.correlationId).toBeBytes
  let buf := writeSlice buf 16 (toBe 4 a.intent.symbol.toNat)
  let buf := writeSlice buf 20 [a.intent.side]
  let buf := writeSlice buf 21 (toBe 8 a.intent.quantity.toNat)
  let buf := writeSlice buf 29 [a.intent.orderType]
  let buf := writeSlice buf 30 (toBe 8 a.intent.limitPaise.toUInt64.toNat)
  let buf := writeSlice buf 38 [a.intent.exchange.toUInt8]
  let buf := writeSlice buf 39 (toBe 8 a.sizedQuantity.toNat)
  let buf := writeSlice buf 47 (toBe 8 a.tsNs.toNat)
  writeSlice buf 55 (toBe 8 a.sequence.toNat)

/-- `ApprovalSigner::sign`. -/
def sign (mac : Mac) (key : Key) (a : Approval) : ApprovalToken :=
  mac key (writeCanonicalToArray a)

/-- `ApprovalVerifier::verify`. -/
def verify (mac : Mac) (key : Key) (token : ApprovalToken) (a : Approval) : Bool :=
  mac key (writeCanonicalToArray a) == token

/-! ## The canonical layout -/

@[simp] theorem length_pushCanonical (a : Approval) :
    (pushCanonical a).length = intentCanonicalBytes := by
  simp [pushCanonical, intentCanonicalBytes]

/-- Filling the array at running offsets is appending the fields. -/
theorem writeCanonicalToArray_eq (a : Approval) :
    writeCanonicalToArray a = pushCanonical a := by
  simp only [writeCanonicalToArray]
  rw [← List.nil_append (List.replicate intentCanonicalBytes 0), writeSlice_append _ List.length_nil]
  iterate 9 rw [writeSlice_append _ (by simp)]
  simp [pushCanonical, intentCanonicalBytes, List.append_assoc]

@[simp] theorem length_writeCanonicalToArray (a : Approval) :
    (writeCanonicalToArray a).length = intentCanonicalBytes := by
  rw [writeCanonicalToArray_eq, length_pushCanonical]

/-- The big-endian bytes of a `u64` determine it. -/
theorem toBe_u64_inj {x y : UInt64} (h : toBe 8 x.toNat = toBe 8 y.toNat) : x = y := by
  have hx := x.toNat_lt
  have hy := y.toNat_lt
  exact UInt64.toNat_inj.mp (toBe_inj_of_lt (by norm_num; omega) (by norm_num; omega) h)

/-- The big-endian bytes of a `u32` determine it. -/
theorem toBe_u32_inj {x y : UInt32} (h : toBe 4 x.toNat = toBe 4 y.toNat) : x = y := by
  have hx := x.toNat_lt
  have hy := y.toNat_lt
  exact UInt32.toNat_inj.mp (toBe_inj_of_lt (by norm_num; omega) (by norm_num; omega) h)

/-- The canonical bytes determine every signed field. -/
theorem pushCanonical_injective : Function.Injective pushCanonical := by
  intro a b h
  unfold pushCanonical at h
  -- peel the fields off from the left; each has the same width on both sides
  obtain ⟨hcid, h⟩ := List.append_inj h (by simp)
  obtain ⟨hsym, h⟩ := List.append_inj h (by simp)
  obtain ⟨hside, h⟩ := List.append_inj h rfl
  obtain ⟨hqty, h⟩ := List.append_inj h (by simp)
  obtain ⟨htype, h⟩ := List.append_inj h rfl
  obtain ⟨hlimit, h⟩ := List.append_inj h (by simp)
  obtain ⟨hexch, h⟩ := List.append_inj h rfl
  obtain ⟨hsized, h⟩ := List.append_inj h (by simp)
  obtain ⟨hts, hseq⟩ := List.append_inj h (by simp)
  rw [CorrelationId.toBeBytes_fromBeBytes, CorrelationId.toBeBytes_fromBeBytes] at hcid
  obtain ⟨⟨cid, sym, side, qty, type, limit, exch⟩, sized, ts, seq⟩ := a
  obtain ⟨⟨cid', sym', side', qty', type', limit', exch'⟩, sized', ts', seq'⟩ := b
  have e1 : cid = cid' := Vector.toList_inj.mp hcid
  have e2 : sym = sym' := toBe_u32_inj hsym
  have e3 : side = side' := List.head_eq_of_cons_eq hside
  have e4 : qty = qty' := toBe_u64_inj hqty
  have e5 : type = type' := List.head_eq_of_cons_eq htype
  have e6 : limit = limit' := congrArg Int64.ofUInt64 (toBe_u64_inj hlimit)
  have e7 : exch = exch' := congrArg Int8.ofUInt8 (List.head_eq_of_cons_eq hexch)
  have e8 : sized = sized' := toBe_u64_inj hsized
  have e9 : ts = ts' := toBe_u64_inj hts
  have e10 : seq = seq' := toBe_u64_inj hseq
  subst e1 e2 e3 e4 e5 e6 e7 e8 e9 e10
  rfl

theorem writeCanonicalToArray_injective : Function.Injective writeCanonicalToArray := by
  intro a b h
  rw [writeCanonicalToArray_eq, writeCanonicalToArray_eq] at h
  exact pushCanonical_injective h

/-- Both writers produce the same 63 bytes, and those of two tuples agree only when all ten
fields do: a signed approval is valid for no other order. -/
theorem canonicalBytes_layout (a b : Approval) :
    pushCanonical a = writeCanonicalToArray a ∧
    (pushCanonical a).length = 63 ∧ (writeCanonicalToArray a).length = 63 ∧
    (pushCanonical a = pushCanonical b ↔
      a.intent.correlationId = b.intent.correlationId ∧ a.intent.symbol = b.intent.symbol ∧
      a.intent.side = b.intent.side ∧ a.intent.quantity = b.intent.quantity ∧
      a.intent.orderType = b.intent.orderType ∧ a.intent.limitPaise = b.intent.limitPaise ∧
      a.intent.exchange = b.intent.exchange ∧ a.sizedQuantity = b.sizedQuantity ∧
      a.tsNs = b.tsNs ∧ a.sequence = b.sequence) := by
  refine ⟨(writeCanonicalToArray_eq a).symm, length_pushCanonical a,
    length_writeCanonicalToArray a, fun h => ?_, ?_⟩
  · obtain rfl := pushCanonical_injective h
    exact ⟨rfl, rfl, rfl, rfl, rfl, rfl, rfl, rfl, rfl, rfl⟩
  · rintro ⟨hcid, hsym, hside, hqty, htype, hlimit, hexch, hsized, hts, hseq⟩
    simp only [pushCanonical, hcid, hsym, hside, hqty, htype, hlimit, hexch, hsized, hts, hseq]

/-! ## Signing and verifying -/

/-- A token verifies exactly when it is the tag of the canonical bytes. -/
theorem verify_iff {mac : Mac} {key : Key} {token : ApprovalToken} {a : Approval} :
    verify mac key token a = true ↔ token = sign mac key a := by
  simp only [verify, sign, beq_iff_eq]
  exact eq_comm

end Hedge.Risk
