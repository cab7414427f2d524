import Hedge.Exec.Service
import Hedge.Risk.Service

/-!
# The correlation id of an order in the two services

Reference: `hedge-exec/src/main.rs` (`parse_cid`), `hedge-risk/src/main.rs` (`build_signal_v1`).

Both services make a 128-bit id of the first sixteen bytes of the text of a correlation id. The
execution service shifts the bytes in from the low end; the risk service fills sixteen bytes from
the front and leaves zeros behind them. On texts of sixteen bytes or more that is the same id.
-/

namespace Hedge.Pipeline

open Hedge Hedge.Common Hedge.Exec Hedge.Risk

/-- The bytes of a text that go into its id. -/
def cidBytes (text : String) : List UInt8 := text.toUTF8.toList.take 16

/-- The id the risk service derives from a text. -/
def riskCid (text : String) : CorrelationId := .fromBeBytes (signalCid text)

/-- The id the execution service derives from a text. -/
def execCid (text : String) : CorrelationId := ⟨parseCid text⟩

/-- The two readings of a correlation id agree on texts of sixteen bytes or more. -/
theorem execCid_eq_riskCid {text : String} (h : 16 ≤ text.toUTF8.toList.length) :
    execCid text = riskCid text := by
  rw [execCid, riskCid, CorrelationId.fromBeBytes, signalCid, toList_ofFn_getD, padded_of_le h,
    parseCid_eq]

theorem ofBe_cidBytes_lt (text : String) : ofBe (cidBytes text) < 2 ^ 128 := by
  have hlen : (cidBytes text).length ≤ 16 := List.length_take_le _ _
  calc ofBe (cidBytes text) < 256 ^ (cidBytes text).length := ofBe_lt _
    _ ≤ 256 ^ 16 := Nat.pow_le_pow_right (by norm_num) hlen
    _ = 2 ^ 128 := by norm_num

/-- Texts without a NUL byte have one id in the execution service exactly if they start alike. -/
theorem execCid_eq_iff {s t : String} (hs : ∀ b ∈ cidBytes s, b ≠ 0)
    (ht : ∀ b ∈ cidBytes t, b ≠ 0) : execCid s = execCid t ↔ cidBytes s = cidBytes t := by
  have hval : ∀ text, (execCid text).val.toNat = ofBe (cidBytes text) := by
    intro text
    rw [execCid, parseCid_eq, BitVec.toNat_ofNat, ← cidBytes,
      Nat.mod_eq_of_lt (ofBe_cidBytes_lt text)]
  constructor
  · intro h
    apply ofBe_inj hs ht
    rw [← hval, ← hval, h]
  · intro h
    rw [execCid, execCid, parseCid_eq, parseCid_eq, ← cidBytes, h]
    rfl

/-- The same in the risk service. -/
theorem riskCid_eq_iff {s t : String} (hs : ∀ b ∈ cidBytes s, b ≠ 0)
    (ht : ∀ b ∈ cidBytes t, b ≠ 0) : riskCid s = riskCid t ↔ cidBytes s = cidBytes t := by
  have hbytes : ∀ text, (riskCid text).toBeBytes = padded 16 text.toUTF8.toList := by
    intro text
    rw [riskCid, CorrelationId.toBeBytes_fromBeBytes, signalCid, toList_ofFn_getD]
  constructor
  · intro h
    have hpad : padded 16 s.toUTF8.toList = padded 16 t.toUTF8.toList := by
      rw [← hbytes, ← hbytes, h]
    rw [cidBytes, cidBytes, ← takeWhile_padded hs, ← takeWhile_padded ht, hpad]
  · intro h
    rw [riskCid, riskCid, CorrelationId.fromBeBytes, CorrelationId.fromBeBytes, signalCid,
      signalCid, toList_ofFn_getD, toList_ofFn_getD, padded, padded, ← cidBytes, ← cidBytes, h]

/-- The two services agree on every text of sixteen bytes or more, and each tells two texts without
a NUL byte apart exactly if they differ in their first sixteen bytes. -/
theorem cid_shared (s t : String) :
    (16 ≤ s.toUTF8.toList.length → execCid s = riskCid s) ∧
      ((∀ b ∈ cidBytes s, b ≠ 0) → (∀ b ∈ cidBytes t, b ≠ 0) →
        (execCid s ≠ execCid t ↔ cidBytes s ≠ cidBytes t) ∧
        (riskCid s ≠ riskCid t ↔ cidBytes s ≠ cidBytes t)) := by
  refine ⟨execCid_eq_riskCid, fun hs ht => ⟨?_, ?_⟩⟩
  · exact not_congr (execCid_eq_iff hs ht)
  · exact not_congr (riskCid_eq_iff hs ht)

/-- Two ids of the demo producer that differ early. -/
theorem cid_shared_synth :
    execCid "synth-0000000012345678" = riskCid "synth-0000000012345678" ∧
      execCid "synth-0000000012345678" ≠ execCid "synth-1000000012345678" ∧
      riskCid "synth-0000000012345678" ≠ riskCid "synth-1000000012345678" := by
  obtain ⟨hagree, hdistinct⟩ := cid_shared "synth-0000000012345678" "synth-1000000012345678"
  obtain ⟨hexec, hrisk⟩ := hdistinct (by decide +kernel) (by decide +kernel)
  have hne : cidBytes "synth-0000000012345678" ≠ cidBytes "synth-1000000012345678" := by
    decide +kernel
  exact ⟨hagree (by decide +kernel), hexec.mpr hne, hrisk.mpr hne⟩

/-- A short text has two ids, and two ids of the demo producer that differ late are one. -/
theorem cid_not_shared :
    ¬ (∀ s : String, execCid s = riskCid s) ∧
      ¬ (∀ s t : String, s ≠ t → execCid s ≠ execCid t ∧ riskCid s ≠ riskCid t) := by
  refine ⟨fun h => ?_, fun h => ?_⟩
  · exact absurd (h "a1") (by decide +kernel)
  · have hne : "synth-0000000012345678" ≠ "synth-0000000012345679" := by decide
    exact absurd (h _ _ hne).1 (by decide +kernel)

end Hedge.Pipeline
