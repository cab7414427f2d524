import Hedge.Common.Run
import Hedge.Risk.State

/-!
# The cooldown registry and its history

Reference: `hedge-risk/src/cooldown.rs`.

An entry outlives its expiry until the next `prune`. `is_cooling` compares the expiry with the
time of the question, so it answers from the history of engages alone (`isCooling_registryAfter`).
`engage` answers from the presence of an entry, and an expired entry that nothing has pruned makes
it return `Extended` for a symbol that is not cooling: `announced_iff` says for which entries its
answer is the false-to-true edge that the transition is documented to be.
-/

namespace Hedge.Risk

open Hedge.Common

/-- A call on the registry. -/
inductive CooldownCall where
  | engage (symbol : SymbolId) (expiryNs : UInt64) (reason : CooldownReason)
  | prune
  | isCooling (symbol : SymbolId)
deriving DecidableEq

/-- A call with the time it is made at. -/
structure TimedCall where
  atNs : UInt64
  call : CooldownCall
deriving DecidableEq

/-- What a call returns. -/
inductive CooldownAnswer where
  | transition (transition : CooldownTransition)
  | expired (symbols : List SymbolId)
  | cooling (cooling : Bool)
deriving DecidableEq

namespace CooldownRegistry

variable {r : CooldownRegistry} {symbol sym : SymbolId} {nowNs atNs expiryNs : UInt64}
  {reason : CooldownReason}

/-- One call: its answer and the registry it leaves. -/
def answer (r : CooldownRegistry) (c : TimedCall) : CooldownAnswer × CooldownRegistry :=
  match c.call with
  | .engage symbol expiryNs reason =>
    let out := engage r symbol expiryNs reason
    (.transition out.1, out.2)
  | .prune =>
    let out := prune r c.atNs
    (.expired out.1, out.2)
  | .isCooling symbol => (.cooling (isCooling r symbol c.atNs), r)

/-- An engage at `atNs` until `expiryNs` finds no expired entry to revive, and opens no entry that
is expired from the start. -/
def Current (r : CooldownRegistry) (symbol : SymbolId) (atNs expiryNs : UInt64) : Prop :=
  match r.lookup symbol with
  | some (heldNs, _) => atNs < heldNs ∨ expiryNs ≤ atNs
  | none => atNs < expiryNs

/-! ## What each operation does to the answers -/

theorem isCooling_iff_lookup :
    isCooling r symbol nowNs = true ↔ ∃ entry, r.lookup symbol = some entry ∧ nowNs < entry.1 := by
  unfold isCooling
  cases r.lookup symbol with
  | none => simp
  | some entry => simp

/-- An engage makes its symbol cool until its expiry, and changes nothing else. -/
theorem isCooling_engage :
    isCooling (engage r sym expiryNs reason).2 symbol nowNs = true ↔
      isCooling r symbol nowNs = true ∨ (sym = symbol ∧ nowNs < expiryNs) := by
  simp only [isCooling_iff_lookup, engage]
  by_cases hsym : sym = symbol
  · subst hsym
    cases hheld : r.lookup sym with
    | none => simp [AList.lookup_insert]
    | some entry =>
      obtain ⟨heldNs, heldReason⟩ := entry
      -- the later of the two expiries is kept
      by_cases hlater : heldNs < expiryNs
      · simp only [hlater, if_true, AList.lookup_insert, Option.some.injEq, exists_eq_left',
          true_and]
        exact ⟨Or.inr, fun h => h.elim (fun h => UInt64.lt_trans h hlater) id⟩
      · simp only [hlater, if_false, hheld, Option.some.injEq, exists_eq_left', true_and]
        exact ⟨Or.inl, fun h => h.elim id (fun h => UInt64.lt_of_lt_of_le h (UInt64.not_lt.mp hlater))⟩
  · simp only [hsym, false_and, or_false]
    cases r.lookup sym with
    | none => rw [AList.lookup_insert_ne (Ne.symm hsym)]
    | some entry =>
      dsimp only
      split
      · rw [AList.lookup_insert_ne (Ne.symm hsym)]
      · rfl

theorem lookup_foldl_erase (symbols : List SymbolId) :
    (symbols.foldl (fun r sym => r.erase sym) r).lookup symbol =
      if symbol ∈ symbols then none else r.lookup symbol := by
  induction symbols generalizing r with
  | nil => simp
  | cons sym symbols ih =>
    rw [List.foldl_cons, ih]
    by_cases hsym : symbol = sym
    · subst hsym
      simp [AList.lookup_erase]
    · simp [hsym, AList.lookup_erase_ne hsym]

theorem mem_expired_iff :
    symbol ∈ (prune r atNs).1 ↔ ∃ entry, r.lookup symbol = some entry ∧ entry.1 ≤ atNs := by
  simp only [prune, List.mem_insertionSort, List.mem_filterMap]
  constructor
  · rintro ⟨⟨key, entry⟩, hmem, hkey⟩
    by_cases hle : entry.1 ≤ atNs
    · rw [if_pos hle, Option.some.injEq] at hkey
      subst hkey
      exact ⟨entry, AList.mem_lookup_iff.mpr hmem, hle⟩
    · rw [if_neg hle] at hkey
      cases hkey
  · rintro ⟨entry, hlookup, hle⟩
    exact ⟨⟨symbol, entry⟩, AList.mem_lookup_iff.mp hlookup, if_pos hle⟩

/-- A prune in the past takes away no entry that still cools. -/
theorem isCooling_prune (hle : atNs ≤ nowNs) :
    isCooling (prune r atNs).2 symbol nowNs = true ↔ isCooling r symbol nowNs = true := by
  have hlookup : (prune r atNs).2.lookup symbol =
      if symbol ∈ (prune r atNs).1 then none else r.lookup symbol := lookup_foldl_erase _
  rw [isCooling_iff_lookup, isCooling_iff_lookup, hlookup]
  split
  · rename_i hexpired
    obtain ⟨entry, hheld, hexp⟩ := mem_expired_iff.mp hexpired
    rw [hheld]
    simpa using UInt64.le_trans hexp hle
  · rfl

/-! ## One engage -/

/-- The engage turns its symbol from not cooling to cooling exactly when its expiry lies ahead and
the symbol is not cooling. -/
theorem edge_iff :
    (isCooling r symbol atNs = false ∧
      isCooling (engage r symbol expiryNs reason).2 symbol atNs = true) ↔
      atNs < expiryNs ∧ isCooling r symbol atNs = false := by
  rw [isCooling_engage]
  constructor
  · rintro ⟨hcold, hwarm | ⟨-, hahead⟩⟩
    · rw [hcold] at hwarm
      cases hwarm
    · exact ⟨hahead, hcold⟩
  · rintro ⟨hahead, hcold⟩
    exact ⟨hcold, Or.inr ⟨rfl, hahead⟩⟩

theorem engage_eq_engaged_iff :
    (engage r symbol expiryNs reason).1 = .engaged ↔ r.lookup symbol = none := by
  unfold engage
  cases r.lookup symbol with
  | none => simp
  | some entry => simp

/-- The answer of an engage is the edge exactly when no expired entry is in its way. -/
theorem announced_iff :
    ((engage r symbol expiryNs reason).1 = .engaged ↔
      atNs < expiryNs ∧ isCooling r symbol atNs = false) ↔ Current r symbol atNs expiryNs := by
  rw [engage_eq_engaged_iff]
  unfold Current isCooling
  cases r.lookup symbol with
  | none => simp
  | some entry =>
    obtain ⟨heldNs, heldReason⟩ := entry
    simp only [reduceCtorEq, false_iff, not_and, decide_eq_false_iff_not, not_not]
    constructor
    · intro h
      by_cases hahead : atNs < expiryNs
      · exact Or.inl (h hahead)
      · exact Or.inr (UInt64.not_lt.mp hahead)
    · rintro (hheld | hpast) hahead
      · exact hheld
      · exact absurd hahead (UInt64.not_lt.mpr hpast)

end CooldownRegistry

/-! ## Runs -/

open CooldownRegistry

/-- The registry after `calls`, from the empty one. -/
def registryAfter (calls : List TimedCall) : CooldownRegistry :=
  runState CooldownRegistry.answer ∅ calls

/-- The calls are made at nondecreasing times. -/
def InOrder (calls : List TimedCall) : Prop :=
  calls.Pairwise fun a b => a.atNs ≤ b.atNs

/-- Some engage of `symbol` among `calls` carried an expiry after `nowNs`. -/
def EngagedBeyond (calls : List TimedCall) (symbol : SymbolId) (nowNs : UInt64) : Prop :=
  ∃ c ∈ calls, ∃ expiryNs reason, c.call = .engage symbol expiryNs reason ∧ nowNs < expiryNs

/-- Every `is_cooling` of the run answers from the engages before it. -/
def CoolingFollows (calls : List TimedCall) : Prop :=
  ∀ pre c post, calls = pre ++ c :: post → ∀ symbol, c.call = .isCooling symbol →
    ((answer (registryAfter pre) c).1 = .cooling true ↔ EngagedBeyond pre symbol c.atNs)

/-- Every engage of the run returns `Engaged` exactly when it turns its symbol from not cooling to
cooling; for an expiry that lies ahead, exactly when the symbol was not cooling. -/
def EdgesAnnounced (calls : List TimedCall) : Prop :=
  ∀ pre c post, calls = pre ++ c :: post →
    ∀ symbol expiryNs reason, c.call = .engage symbol expiryNs reason →
      (c.atNs < expiryNs → ((answer (registryAfter pre) c).1 = .transition .engaged ↔
        isCooling (registryAfter pre) symbol c.atNs = false)) ∧
      ((answer (registryAfter pre) c).1 = .transition .engaged ↔
        isCooling (registryAfter pre) symbol c.atNs = false ∧
        isCooling (registryAfter (pre ++ [c])) symbol c.atNs = true)

/-- Every engage of the run finds the registry current for it. -/
def EngagesCurrent (calls : List TimedCall) : Prop :=
  ∀ pre c post, calls = pre ++ c :: post →
    ∀ symbol expiryNs reason, c.call = .engage symbol expiryNs reason →
      Current (registryAfter pre) symbol c.atNs expiryNs

theorem registryAfter_concat (calls : List TimedCall) (c : TimedCall) :
    registryAfter (calls ++ [c]) = (answer (registryAfter calls) c).2 := by
  rw [registryAfter, runState_append]
  rfl

theorem engagedBeyond_concat {calls : List TimedCall} {c : TimedCall} {symbol : SymbolId}
    {nowNs : UInt64} :
    EngagedBeyond (calls ++ [c]) symbol nowNs ↔ EngagedBeyond calls symbol nowNs ∨
      ∃ expiryNs reason, c.call = .engage symbol expiryNs reason ∧ nowNs < expiryNs := by
  simp only [EngagedBeyond, List.mem_append, List.mem_singleton, or_and_right, exists_or,
    exists_eq_left]

/-- At any time after the calls, a symbol is cooling exactly when an engage reached beyond it. -/
theorem isCooling_registryAfter {calls : List TimedCall} {nowNs : UInt64}
    (hpast : ∀ c ∈ calls, c.atNs ≤ nowNs) (symbol : SymbolId) :
    isCooling (registryAfter calls) symbol nowNs = true ↔ EngagedBeyond calls symbol nowNs := by
  induction calls using List.reverseRecOn with
  | nil => simp [EngagedBeyond, registryAfter, isCooling_iff_lookup]
  | append_singleton calls c ih =>
    have hcalls := ih fun c' hc' => hpast c' (List.mem_append_left _ hc')
    have hc : c.atNs ≤ nowNs := hpast c (by simp)
    -- each call adds to the answers what it adds to the engages: only an engage does
    rw [registryAfter_concat, engagedBeyond_concat, ← hcalls]
    obtain ⟨atNs, call⟩ := c
    cases call with
    | engage sym expiryNs reason =>
      show isCooling (engage _ sym expiryNs reason).2 symbol nowNs = true ↔ _
      rw [isCooling_engage]
      refine or_congr_right ⟨fun ⟨hsym, hlt⟩ => ⟨expiryNs, reason, by rw [hsym], hlt⟩, ?_⟩
      rintro ⟨_, _, hcall, hlt⟩
      cases hcall
      exact ⟨rfl, hlt⟩
    | prune =>
      show isCooling (prune _ atNs).2 symbol nowNs = true ↔ _
      rw [isCooling_prune hc]
      simp
    | isCooling sym => simp [answer]

theorem coolingFollows_of_inOrder {calls : List TimedCall} (horder : InOrder calls) :
    CoolingFollows calls := by
  intro pre c post hsplit symbol hcall
  rw [InOrder, hsplit, List.pairwise_append] at horder
  have hpast : ∀ c' ∈ pre, c'.atNs ≤ c.atNs :=
    fun c' hc' => horder.2.2 c' hc' c List.mem_cons_self
  rw [← isCooling_registryAfter hpast symbol, answer, hcall]
  simp

/-- The answer to one engage of a run is right exactly when the registry is current for it. -/
theorem announced_iff_current {r : CooldownRegistry} {c : TimedCall} {symbol : SymbolId}
    {expiryNs : UInt64} {reason : CooldownReason} (hcall : c.call = .engage symbol expiryNs reason) :
    ((c.atNs < expiryNs → ((answer r c).1 = .transition .engaged ↔
        isCooling r symbol c.atNs = false)) ∧
      ((answer r c).1 = .transition .engaged ↔ isCooling r symbol c.atNs = false ∧
        isCooling (answer r c).2 symbol c.atNs = true)) ↔ Current r symbol c.atNs expiryNs := by
  have hanswer : answer r c = (.transition (engage r symbol expiryNs reason).1,
      (engage r symbol expiryNs reason).2) := by
    rw [answer, hcall]
  rw [hanswer]
  dsimp only
  rw [edge_iff, CooldownAnswer.transition.injEq, announced_iff]
  refine ⟨And.right, fun hcurrent => ⟨fun hahead => ?_, hcurrent⟩⟩
  rw [announced_iff.mpr hcurrent]
  simp [hahead]

/-- Over any run at nondecreasing times `is_cooling` follows the history of engages, and `engage`
announces exactly the false-to-true edges precisely when no engage of the run meets an expired
entry that would be revived, or opens one that is expired already. -/
theorem cooldowns_follow_iff (calls : List TimedCall) (horder : InOrder calls) :
    CoolingFollows calls ∧ (EdgesAnnounced calls ↔ EngagesCurrent calls) := by
  refine ⟨coolingFollows_of_inOrder horder, ?_⟩
  unfold EdgesAnnounced EngagesCurrent
  refine forall₄_congr fun pre c post _ => forall₄_congr fun symbol expiryNs reason hcall => ?_
  rw [registryAfter_concat]
  exact announced_iff_current hcall

/-- A cooldown that runs out at 10 and is engaged again at 20 with nothing pruned in between. -/
def reengaged : List TimedCall :=
  [⟨0, .engage ⟨1⟩ 10 .slippage⟩, ⟨20, .engage ⟨1⟩ 30 .slippage⟩]

theorem cooldowns_follow_iff_reengaged :
    CoolingFollows reengaged ∧ (EdgesAnnounced reengaged ↔ EngagesCurrent reengaged) :=
  cooldowns_follow_iff reengaged (by simp [InOrder, reengaged])

/-- The second engage returns `Extended` though the symbol was not cooling. -/
theorem not_edgesAnnounced_reengaged :
    ¬ ∀ calls, InOrder calls → CoolingFollows calls ∧ EdgesAnnounced calls := by
  intro h
  have hannounced := (h reengaged (by simp [InOrder, reengaged])).2
  have hsecond := (hannounced [⟨0, .engage ⟨1⟩ 10 .slippage⟩] ⟨20, .engage ⟨1⟩ 30 .slippage⟩ []
    rfl ⟨1⟩ 30 .slippage rfl).1 (by decide)
  revert hsecond
  decide

end Hedge.Risk
