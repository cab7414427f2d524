import Hedge.Pipeline.Identity
import Hedge.Warm.Updater

/-!
# The key of a ranking

Reference: `hedge-warmcache/src/updater.rs` (`parse_correlation_id`), `hedge-risk/src/main.rs`
(`build_signal_v1`).

The ranking of a signal is stored under the number that its correlation id spells in hexadecimal.
The risk engine looks for it under the number that the codes of the first sixteen characters spell.
Two digits are one byte of the stored key, and one character is one byte of the other: the keys of
an id agree only where every pair of digits is the code of the character at half its place.
-/

namespace Hedge.Pipeline

open Hedge Hedge.Common Hedge.Risk Hedge.Warm

/-! ## Hexadecimal ids -/

/-- A lower-case hexadecimal digit. -/
def IsLowerHex (c : Char) : Prop := '0' ≤ c ∧ c ≤ '9' ∨ 'a' ≤ c ∧ c ≤ 'f'

instance (c : Char) : Decidable (IsLowerHex c) := inferInstanceAs (Decidable (_ ∨ _))

/-- A correlation id of 32 lower-case hexadecimal digits. -/
def IsHexId (text : String) : Prop := text.toList.length = 32 ∧ ∀ c ∈ text.toList, IsLowerHex c

instance (text : String) : Decidable (IsHexId text) :=
  @instDecidableAnd _ _ inferInstance (List.decidableBAll _ _)

/-- The value of a lower-case hexadecimal digit. -/
def hexVal (c : Char) : ℕ := if c.toNat < 58 then c.toNat - 48 else c.toNat - 87

theorem IsLowerHex.toNat {c : Char} (h : IsLowerHex c) :
    48 ≤ c.toNat ∧ c.toNat ≤ 57 ∨ 97 ≤ c.toNat ∧ c.toNat ≤ 102 := h

theorem IsLowerHex.hexVal_lt {c : Char} (h : IsLowerHex c) : hexVal c < 16 := by
  have hc := h.toNat
  rw [hexVal]
  split_ifs <;> omega

/-- Only the digit `3` starts a pair that is its own code. -/
theorem IsLowerHex.of_own_code {c : Char} (h : IsLowerHex c) {low : ℕ} (hlow : low < 16)
    (hcode : 16 * hexVal c + low = c.toNat) : hexVal c = 3 ∧ low = 3 := by
  have hc := h.toNat
  rw [hexVal] at hcode ⊢
  split_ifs at hcode ⊢ <;> omega

theorem IsLowerHex.digitVal_eq {c : Char} (h : IsLowerHex c) :
    digitVal 16 c = some (hexVal c) := by
  have hlt := h.hexVal_lt
  have hkeep : (some (hexVal c)).filter (fun n => decide (n < 16)) = some (hexVal c) := by
    simp [hlt]
  rw [← hkeep, digitVal]
  congr 1
  rcases h.toNat with ⟨hlow, hhigh⟩ | ⟨hlow, hhigh⟩
  · have hdigit : c.isDigit = true := by
      rw [Char.isDigit, Bool.and_eq_true, decide_eq_true_eq, decide_eq_true_eq]
      exact ⟨hlow, hhigh⟩
    rw [if_pos hdigit, hexVal, if_pos (by omega)]
    rfl
  · have hdigit : ¬ c.isDigit = true := by
      rw [Char.isDigit, Bool.and_eq_true, decide_eq_true_eq, decide_eq_true_eq]
      rintro ⟨-, h9⟩
      have h9 : c.toNat ≤ 57 := h9
      omega
    have hletter : 'a' ≤ c ∧ c ≤ 'z' := by
      refine ⟨hlow, ?_⟩
      show c.toNat ≤ 122
      omega
    rw [if_neg hdigit, if_pos hletter, hexVal, if_neg (by omega)]
    show some (c.toNat - 97 + 10) = _
    congr 1
    omega

/-! ## The two keys of an id -/

/-- The digits of an id. -/
def hexDigits (text : String) : List ℕ := text.toList.map hexVal

theorem IsHexId.length_hexDigits {text : String} (h : IsHexId text) :
    (hexDigits text).length = 32 := by
  rw [hexDigits, List.length_map, h.1]

theorem IsHexId.toUTF8 {text : String} (h : IsHexId text) :
    text.toUTF8.toList = text.toList.map fun c => UInt8.ofNat c.toNat := by
  apply toUTF8_of_ascii
  intro c hc
  have := (h.2 c hc).toNat
  omega

theorem IsHexId.mapM_digitVal {text : String} (h : IsHexId text) :
    text.toList.mapM (digitVal 16) = some (hexDigits text) := by
  have hall : ∀ cs : List Char, (∀ c ∈ cs, IsLowerHex c) →
      cs.mapM (digitVal 16) = some (cs.map hexVal) := by
    intro cs hcs
    induction cs with
    | nil => rfl
    | cons c cs ih =>
      rw [List.mapM_cons, (hcs c List.mem_cons_self).digitVal_eq,
        ih fun c hc => hcs c (List.mem_cons_of_mem _ hc)]
      rfl
  exact hall text.toList h.2

/-- The warm cache stores the number that the digits of the id spell. -/
theorem IsHexId.parseCorrelationId_eq {text : String} (h : IsHexId text) :
    parseCorrelationId text = some ⟨BitVec.ofNat 128 (ofBe (hexBytes (hexDigits text)))⟩ := by
  have hsize : text.utf8ByteSize = 32 := by
    rw [← length_toUTF8, h.toUTF8, List.length_map, h.1]
  have hvalue : (hexDigits text).foldl (fun n d => n * 16 + d) 0
      = ofBe (hexBytes (hexDigits text)) := by
    apply foldl_hexBytes
    · intro d hd
      obtain ⟨c, hc, rfl⟩ := List.mem_map.mp hd
      exact (h.2 c hc).hexVal_lt
    · rw [h.length_hexDigits]
  have hlt : ofBe (hexBytes (hexDigits text)) < 2 ^ 128 := by
    have hbound := ofBe_lt (hexBytes (hexDigits text))
    rw [length_hexBytes, h.length_hexDigits] at hbound
    exact hbound
  have hne : text.toList ≠ [] := by
    intro hnil
    have hlen := h.1
    rw [hnil] at hlen
    exact absurd hlen (by decide)
  have hplus : text.toList.head? ≠ some '+' := by
    intro hhead
    exact absurd (h.2 '+' (List.mem_of_mem_head? hhead)) (by decide)
  have hparse : parseUnsigned 16 (2 ^ 128) text = some (ofBe (hexBytes (hexDigits text))) := by
    rw [parseUnsigned_of_unsigned hplus hne, h.mapM_digitVal, Option.map_some, hvalue,
      Option.filter_some, if_pos (decide_eq_true hlt)]
  rw [parseCorrelationId, if_pos hsize, hparse]
  rfl

/-- The risk engine asks for the number that the codes of the first sixteen characters spell. -/
theorem IsHexId.riskCid_eq {text : String} (h : IsHexId text) :
    riskCid text = ⟨BitVec.ofNat 128
      (ofBe ((text.toList.map fun c => UInt8.ofNat c.toNat).take 16))⟩ := by
  have hlen : 16 ≤ text.toUTF8.toList.length := by
    rw [h.toUTF8, List.length_map, h.1]
    omega
  rw [riskCid, CorrelationId.fromBeBytes, signalCid, toList_ofFn_getD, padded_of_le hlen, h.toUTF8]

/-! ## Agreement -/

/-- The keys are the same if each pair of digits is the code of the character at half its place. -/
theorem IsHexId.keys_eq_iff {text : String} (h : IsHexId text) :
    parseCorrelationId text = some (riskCid text) ↔
      hexBytes (hexDigits text) = (text.toList.map fun c => UInt8.ofNat c.toNat).take 16 := by
  have hlenHex : (hexBytes (hexDigits text)).length = 16 := by
    rw [length_hexBytes, h.length_hexDigits]
  have hlenCodes : ((text.toList.map fun c => UInt8.ofNat c.toNat).take 16).length = 16 := by
    rw [List.length_take, List.length_map, h.1]
    rfl
  rw [h.parseCorrelationId_eq, h.riskCid_eq]
  constructor
  · intro heq
    apply ofBe_inj_of_length_eq (hlenHex.trans hlenCodes.symm)
    have hhex := ofBe_lt (hexBytes (hexDigits text))
    have hcodes := ofBe_lt ((text.toList.map fun c => UInt8.ofNat c.toNat).take 16)
    rw [hlenHex, show 256 ^ 16 = 2 ^ 128 from rfl] at hhex
    rw [hlenCodes, show 256 ^ 16 = 2 ^ 128 from rfl] at hcodes
    have hval := congrArg BitVec.toNat (CorrelationId.mk.inj (Option.some.inj heq))
    rwa [BitVec.toNat_ofNat, BitVec.toNat_ofNat, Nat.mod_eq_of_lt hhex,
      Nat.mod_eq_of_lt hcodes] at hval
  · intro heq
    rw [heq]

/-- A pair of digits that is the code of a character. -/
theorem IsHexId.pair_eq {text : String} (h : IsHexId text)
    (heq : hexBytes (hexDigits text) = (text.toList.map fun c => UInt8.ofNat c.toNat).take 16)
    {i : ℕ} (hi : i < 16) :
    16 * hexVal (text.toList.getD (2 * i) '0') + hexVal (text.toList.getD (2 * i + 1) '0')
      = (text.toList.getD i '0').toNat := by
  have hlen := h.1
  have hbyte := congrArg (·[i]?) heq
  have hdigits : 2 * i + 1 < (hexDigits text).length := by
    rw [h.length_hexDigits]
    omega
  simp only [getElem?_hexBytes _ hdigits, List.getElem?_take_of_lt hi, List.getElem?_map] at hbyte
  rw [List.getElem?_eq_getElem (by omega), Option.map_some, Option.some.injEq] at hbyte
  have hnat := congrArg UInt8.toNat hbyte
  have hmem : ∀ k (hk : k < text.toList.length), text.toList[k] ∈ text.toList := by
    intro k hk
    exact List.getElem_mem hk
  rw [List.getD_eq_getElem _ _ (by omega), List.getD_eq_getElem _ _ (by omega),
    List.getD_eq_getElem _ _ (by omega)]
  have hhigh := (h.2 _ (hmem (2 * i) (by omega))).hexVal_lt
  have hlow := (h.2 _ (hmem (2 * i + 1) (by omega))).hexVal_lt
  have hcode := (h.2 _ (hmem i (by omega))).toNat
  simp only [hexDigits, List.getElem_map, UInt8.toNat_ofNat'] at hnat
  omega

/-- Only one id has one key. -/
theorem IsHexId.digit_eq {text : String} (h : IsHexId text)
    (heq : hexBytes (hexDigits text) = (text.toList.map fun c => UInt8.ofNat c.toNat).take 16)
    {j : ℕ} (hj : j < 32) : text.toList.getD j '0' = '3' := by
  have hlower : ∀ k < 32, IsLowerHex (text.toList.getD k '0') := by
    intro k hk
    have hlen := h.1
    rw [List.getD_eq_getElem _ _ (by omega)]
    exact h.2 _ (List.getElem_mem _)
  have hthree : ∀ k < 32, hexVal (text.toList.getD k '0') = 3 → text.toList.getD k '0' = '3' := by
    intro k hk hval
    have hc := (hlower k hk).toNat
    apply Char.toNat_inj.mp
    rw [hexVal] at hval
    show _ = 51
    split_ifs at hval <;> omega
  induction j using Nat.strong_induction_on with
  | _ j ih =>
    have hpair := h.pair_eq heq (show j / 2 < 16 by omega)
    have hhigh := (hlower (2 * (j / 2)) (by omega)).hexVal_lt
    have hlow := (hlower (2 * (j / 2) + 1) (by omega)).hexVal_lt
    -- the first digit is its own high half
    have hboth : hexVal (text.toList.getD (2 * (j / 2)) '0') = 3 ∧
        hexVal (text.toList.getD (2 * (j / 2) + 1) '0') = 3 := by
      rcases Nat.eq_zero_or_pos (j / 2) with hzero | hpos
      · rw [hzero] at hpair hlow ⊢
        exact (hlower 0 (by omega)).of_own_code hlow hpair
      · rw [ih (j / 2) (by omega) (by omega)] at hpair
        have hpair : _ = 51 := hpair
        omega
    rcases Nat.mod_two_eq_zero_or_one j with hmod | hmod
    · have hplace : 2 * (j / 2) = j := by omega
      exact hthree j hj (hplace ▸ hboth.1)
    · have hplace : 2 * (j / 2) + 1 = j := by omega
      exact hthree j hj (hplace ▸ hboth.2)

theorem IsHexId.all_three_iff {text : String} (h : IsHexId text) :
    hexBytes (hexDigits text) = (text.toList.map fun c => UInt8.ofNat c.toNat).take 16 ↔
      text.toList = List.replicate 32 '3' := by
  constructor
  · intro heq
    apply List.ext_getElem
    · rw [h.1, List.length_replicate]
    · intro j hj hj'
      have hdigit := h.digit_eq heq (h.1 ▸ hj)
      rw [List.getD_eq_getElem _ _ hj] at hdigit
      rw [hdigit, List.getElem_replicate]
  · intro hall
    rw [hexDigits, hall]
    decide

/-- The ranking of an id is found by the risk engine only under thirty-two digits `3`. -/
theorem IsHexId.found_iff {text : String} (h : IsHexId text) :
    parseCorrelationId text = some (riskCid text) ↔ text.toList = List.replicate 32 '3' :=
  h.keys_eq_iff.trans h.all_three_iff

theorem rankStored_key {rank : Json} {ev : AiRankEvent} (h : AiRankEvent.read rank = some ev) :
    (rankStored rank).map (·.1) = parseCorrelationId ev.correlationId := by
  rw [rankStored, h, Option.bind_some, Option.map_map]
  exact Option.map_id'

theorem signal_key {sig : Json} {signal : Signal} (h : buildSignalV1 sig = some signal) :
    CorrelationId.fromBeBytes signal.correlationId = riskCid (signalCidText sig) := by
  rw [(buildSignalV1_inv h).2.1, riskCid]

/-- An id of 32 lower-case hexadecimal digits that a ranking and a signal share: the ranking is
stored under the key that the risk engine asks for only if every digit is a `3`. -/
theorem rankKey_eq_signalKey_iff {rank sig : Json} {ev : AiRankEvent} {signal : Signal}
    (hrank : AiRankEvent.read rank = some ev) (hsignal : buildSignalV1 sig = some signal)
    (hshared : signalCidText sig = ev.correlationId) (hhex : IsHexId ev.correlationId) :
    (rankStored rank).map (·.1) = some (CorrelationId.fromBeBytes signal.correlationId) ↔
      ev.correlationId.toList = List.replicate 32 '3' := by
  rw [rankStored_key hrank, signal_key hsignal, hshared, hhex.found_iff]

/-- A ranking under an id. -/
def rankOf (cid : String) : Json :=
  .obj [("correlation_id", .str cid), ("trade_confidence_score", .num (.float (9 / 10)))]

/-- A signal under an id. -/
def signalOf (cid : String) : Json :=
  .obj [("symbol", .str "RELIANCE"), ("side", .str "buy"), ("correlation_id", .str cid)]

theorem read_rankOf (cid : String) :
    AiRankEvent.read (rankOf cid) = some ⟨cid, (ExactFloat.fin (9 / 10)).toF32, 0⟩ := rfl

theorem buildSignalV1_signalOf (cid : String) :
    ∃ signal, buildSignalV1 (signalOf cid) = some signal := ⟨_, rfl⟩

theorem signalCidText_signalOf (cid : String) : signalCidText (signalOf cid) = cid := rfl

/-- An id of digits other than `3` has two keys. -/
theorem rankKey_ne_signalKey :
    ¬ ∀ (rank sig : Json) (ev : AiRankEvent) (signal : Signal),
      AiRankEvent.read rank = some ev → buildSignalV1 sig = some signal →
        signalCidText sig = ev.correlationId → IsHexId ev.correlationId →
          (rankStored rank).map (·.1) = some (CorrelationId.fromBeBytes signal.correlationId) := by
  intro hall
  have hhex : IsHexId "0123456789abcdef0123456789abcdef" := by decide
  have hread := read_rankOf "0123456789abcdef0123456789abcdef"
  have hcid := signalCidText_signalOf "0123456789abcdef0123456789abcdef"
  obtain ⟨signal, hsignal⟩ := buildSignalV1_signalOf "0123456789abcdef0123456789abcdef"
  have hkeys := hall _ _ _ _ hread hsignal hcid hhex
  rw [rankStored_key hread, signal_key hsignal, hcid] at hkeys
  exact absurd (hhex.found_iff.mp hkeys) (by decide)

theorem rankKey_eq_signalKey_threes :
    ∃ signal, buildSignalV1 (signalOf "33333333333333333333333333333333") = some signal ∧
      (rankStored (rankOf "33333333333333333333333333333333")).map (·.1)
        = some (CorrelationId.fromBeBytes signal.correlationId) := by
  have hhex : IsHexId "33333333333333333333333333333333" := by decide
  obtain ⟨signal, hsignal⟩ := buildSignalV1_signalOf "33333333333333333333333333333333"
  refine ⟨signal, hsignal, ?_⟩
  exact (rankKey_eq_signalKey_iff (read_rankOf _) hsignal (signalCidText_signalOf _) hhex).mpr
    (by decide)

end Hedge.Pipeline
