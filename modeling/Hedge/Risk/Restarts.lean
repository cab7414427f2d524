import Hedge.Common.Json
import Hedge.Risk.Runs
import Hedge.Warm.Staleness

/-!
# Restarts of the risk service

Reference: `hedge-risk/src/persistence.rs`, the persistence part of `main` in
`hedge-risk/src/main.rs`, `hedge-core/src/clock.rs`.

Cooldowns and the daily PnL are meant to survive a restart: the service loads a snapshot when it
starts and saves one every ten seconds. But the snapshot it saves is the empty one and the one it
loads is only logged. A new process starts with a fresh engine, and with its clock at zero.
-/

namespace Hedge.Risk

open Hedge.Common Hedge.Core
open Hedge.Warm (clockNs)

/-! ## The persisted soft state -/

/-- One persisted cooldown entry. -/
structure PersistedCooldown where
  symbol : UInt32
  expiryNs : UInt64
  reason : UInt8
deriving DecidableEq

namespace PersistedCooldown

def toJson (c : PersistedCooldown) : Json :=
  .obj [("symbol", .ofU32 c.symbol), ("expiry_ns", .ofU64 c.expiryNs), ("reason", .ofU8 c.reason)]

def fromJson (v : Json) : Option PersistedCooldown :=
  if v.isStruct 3 then do
    let symbol ← v.required 0 "symbol" Json.asU32
    let expiryNs ← v.required 1 "expiry_ns" Json.asU64
    let reason ← v.required 2 "reason" Json.asU8
    return ⟨symbol, expiryNs, reason⟩
  else none

theorem fromJson_toJson (c : PersistedCooldown) : fromJson c.toJson = some c := by
  simp [fromJson, toJson, Json.isStruct, Json.required, Json.structField]

end PersistedCooldown

/-- The soft state of the engine. -/
structure RiskStateSnapshot where
  cooldowns : List PersistedCooldown
  dailyPnlPaise : Int64
deriving DecidableEq

/-- `RiskStateSnapshot::default`. -/
def RiskStateSnapshot.default : RiskStateSnapshot := ⟨[], 0⟩

/-- Redis: what was last set under each key. A text stands as the JSON it spells. -/
abbrev RedisKeys := Map String Json

namespace RiskPersistence

def keyCooldowns : String := "hedge:risk:cooldowns"

def keyDailyPnl : String := "hedge:risk:daily_pnl_paise"

/-- `RiskPersistence::save`. -/
def save (redis : RedisKeys) (snapshot : RiskStateSnapshot) : RedisKeys :=
  (redis.insert keyCooldowns (.arr (snapshot.cooldowns.map PersistedCooldown.toJson))).insert
    keyDailyPnl (.ofI64 snapshot.dailyPnlPaise)

/-- A cooldown table; one entry that does not read spoils it. -/
def readCooldowns : Json → Option (List PersistedCooldown)
  | .arr elems => elems.mapM PersistedCooldown.fromJson
  | _ => none

/-- `RiskPersistence::load`: what is missing or does not read is empty. -/
def load (redis : RedisKeys) : RiskStateSnapshot where
  cooldowns := ((redis.lookup keyCooldowns).bind readCooldowns).getD []
  dailyPnlPaise := ((redis.lookup keyDailyPnl).bind Json.asI64).getD 0

theorem readCooldowns_map (cooldowns : List PersistedCooldown) :
    readCooldowns (.arr (cooldowns.map PersistedCooldown.toJson)) = some cooldowns := by
  rw [readCooldowns]
  induction cooldowns with
  | nil => rfl
  | cons c cooldowns ih =>
    rw [List.map_cons, List.mapM_cons, PersistedCooldown.fromJson_toJson, ih]
    rfl

/-- What was saved is what is loaded. -/
theorem load_save (redis : RedisKeys) (snapshot : RiskStateSnapshot) :
    load (save redis snapshot) = snapshot := by
  have hkeys : keyCooldowns ≠ keyDailyPnl := by decide
  rw [load, save, AList.lookup_insert, AList.lookup_insert_ne hkeys, AList.lookup_insert,
    Option.bind_some, Option.bind_some, readCooldowns_map, Json.asI64_ofI64]
  rfl

end RiskPersistence

/-! ## The service over a session -/

/-- The running process, Redis and real time. -/
structure RiskHost where
  engine : RiskEngineState
  /-- The start of the running process. -/
  startNs : ℕ
  realNs : ℕ
  redis : RedisKeys
  /-- What the running process loaded and logged. -/
  restored : RiskStateSnapshot
  /-- The realised PnL at the last save, if there was one. -/
  savedPnl : Option Int64

/-- What can happen: an action on the engine, the passing of time, a tick of the save loop, and a
restart. -/
inductive HostAction where
  | act (a : RiskAction)
  | advance (ns : ℕ)
  | save
  | restart

/-- The action with the readings of the process clock. -/
def RiskAction.atClock (nowNs : UInt64) : RiskAction → RiskAction
  | .evaluate inp =>
    .evaluate { inp with frequencyNs := nowNs, cooldownNs := nowNs, mintNs := nowNs }
  | a => a

namespace RiskHost

/-- The first process of the session. -/
def boot (eng : RiskEngine) (redis : RedisKeys) (realNs : ℕ) : RiskHost :=
  ⟨eng.init, realNs, realNs, redis, RiskPersistence.load redis, none⟩

/-- The reading of `now_ns`. -/
def nowNs (h : RiskHost) : UInt64 := clockNs h.startNs h.realNs

end RiskHost

/-- One action; only `evaluate` has a decision. -/
def hostStep (mac : Mac) (eng : RiskEngine) (h : RiskHost) :
    HostAction → Option RiskDecision × RiskHost
  | .act a =>
    let out := riskStep mac eng h.engine (a.atClock h.nowNs)
    (out.1, { h with engine := out.2 })
  | .advance ns => (none, { h with realNs := h.realNs + ns })
  | .save =>
    (none, { h with
      redis := RiskPersistence.save h.redis .default
      savedPnl := some h.engine.state.realizedPnlPaise })
  | .restart =>
    (none, { h with
      engine := eng.init
      startNs := h.realNs
      restored := RiskPersistence.load h.redis })

/-- The state after a run. -/
abbrev hostRun (mac : Mac) (eng : RiskEngine) (h : RiskHost) (acts : List HostAction) : RiskHost :=
  runState (hostStep mac eng) h acts

/-! ## What a restart keeps -/

/-- The symbol cools until a real time. -/
def RiskHost.CoolsUntil (h : RiskHost) (symbol : SymbolId) (untilNs : ℕ) : Prop :=
  ∃ expiry reason, h.engine.state.cooldowns.lookup symbol = some (expiry, reason) ∧
    untilNs = h.startNs + expiry.toNat

/-- A restart keeps the controls: whatever happens after it, a symbol that cools until some time is
rejected for it at every call before that time, and the PnL is the one of the last save. -/
structure ControlsSurvive (mac : Mac) (eng : RiskEngine) (h : RiskHost) : Prop where
  cooldowns : ∀ symbol untilNs, h.CoolsUntil symbol untilNs → ∀ more inp,
    SymbolId.mk inp.signal.symbol = symbol →
    let later := hostRun mac eng (hostStep mac eng h .restart).2 more
    later.realNs < untilNs →
    (hostStep mac eng later (.act (.evaluate inp))).1.bind RiskDecision.rejectionReason
      = some .slippageCooldown
  pnl : ∀ v, h.savedPnl = some v →
    (hostStep mac eng h .restart).2.engine.state.realizedPnlPaise = v

/-- There is nothing to lose at a restart: no symbol is cooling, and the last save, if there was one,
came at a PnL of zero. -/
def NothingToLose (h : RiskHost) : Prop :=
  (∀ symbol, CooldownRegistry.isCooling h.engine.state.cooldowns symbol h.nowNs = false) ∧
    ∀ v, h.savedPnl = some v → v = 0

section Step

variable {mac : Mac} {eng : RiskEngine} {h : RiskHost}

/-- One step: real time goes forward. -/
theorem realNs_hostStep (a : HostAction) : h.realNs ≤ (hostStep mac eng h a).2.realNs := by
  cases a with
  | advance ns => exact Nat.le_add_right _ _
  | act | save | restart => exact Nat.le_refl _

/-- The whole run. -/
theorem realNs_hostRun (h : RiskHost) (acts : List HostAction) :
    h.realNs ≤ (hostRun mac eng h acts).realNs := by
  refine runState_invariant_all (hostStep mac eng) (fun s => h.realNs ≤ s.realNs) ?_ (Nat.le_refl _)
    acts
  intro s a hs
  exact le_trans hs (realNs_hostStep a)

/-- One step: the process started before. -/
theorem startNs_hostStep (a : HostAction) (hstart : h.startNs ≤ h.realNs) :
    (hostStep mac eng h a).2.startNs ≤ (hostStep mac eng h a).2.realNs := by
  cases a with
  | advance ns => exact le_trans hstart (Nat.le_add_right _ _)
  | restart => exact Nat.le_refl _
  | act | save => exact hstart

/-- The whole run. -/
theorem startNs_hostRun (hstart : h.startNs ≤ h.realNs) (acts : List HostAction) :
    (hostRun mac eng h acts).startNs ≤ (hostRun mac eng h acts).realNs :=
  runState_invariant_all (hostStep mac eng) (fun s => s.startNs ≤ s.realNs)
    (fun _ a => startNs_hostStep a) hstart acts

/-- The clock passes an expiry when real time does. -/
theorem lt_clockNs_iff {startNs realNs : ℕ} (hstart : startNs ≤ realNs) (expiry : UInt64) :
    clockNs startNs realNs < expiry ↔ realNs < startNs + expiry.toNat := by
  have hbound := expiry.toNat_lt
  rw [UInt64.lt_iff_toNat_lt, clockNs, UInt64.toNat_ofNat', Nat.mod_eq_of_lt (by omega)]
  omega

/-- A symbol is cooling exactly until the time it cools until. -/
theorem isCooling_iff (hstart : h.startNs ≤ h.realNs) (symbol : SymbolId) :
    CooldownRegistry.isCooling h.engine.state.cooldowns symbol h.nowNs = true ↔
      ∃ untilNs, h.CoolsUntil symbol untilNs ∧ h.realNs < untilNs := by
  unfold CooldownRegistry.isCooling RiskHost.CoolsUntil RiskHost.nowNs
  cases h.engine.state.cooldowns.lookup symbol with
  | none => simp
  | some entry =>
    obtain ⟨expiry, reason⟩ := entry
    simp only [decide_eq_true_eq, lt_clockNs_iff hstart]
    constructor
    · intro hlt
      exact ⟨_, ⟨expiry, reason, rfl, rfl⟩, hlt⟩
    · rintro ⟨untilNs, ⟨_, _, hentry, rfl⟩, hlt⟩
      cases hentry
      exact hlt

/-- A fresh engine rejects nothing for a cooldown. -/
theorem rejectionReason_init_ne (inp : EvalInput) :
    (evaluateInner mac eng eng.init inp).1.rejectionReason ≠ some .slippageCooldown := by
  rw [evaluateInner_rejectionReason]
  intro hreason
  obtain ⟨g, hfirst, hg⟩ := Option.map_eq_some_iff.mp hreason
  have hfails : g.fails eng eng.init inp = true := List.find?_some hfirst
  cases g with
  | slippageCooldown =>
    have hempty : Gate.fails eng eng.init inp .slippageCooldown = false := rfl
    rw [hempty] at hfails
    cases hfails
  | _ => cases hg

/-- A restart keeps the controls exactly if there is nothing to lose. -/
theorem controlsSurvive_iff (hstart : h.startNs ≤ h.realNs) :
    ControlsSurvive mac eng h ↔ NothingToLose h := by
  constructor
  · intro hsurvive
    refine ⟨fun symbol => ?_, fun v hv => (hsurvive.pnl v hv).symm⟩
    -- a call right after the restart would have to be rejected
    by_contra hcooling
    obtain ⟨untilNs, huntil, hlt⟩ :=
      (isCooling_iff hstart symbol).mp (Bool.eq_true_of_not_eq_false hcooling)
    have hreject := hsurvive.cooldowns symbol untilNs huntil []
      ⟨makeSignal symbol.raw (.fin 1), 0, .neutral, ⟨.mon, 10, 0, 0⟩, 0, 0, 0⟩ rfl hlt
    exact rejectionReason_init_ne _ hreject
  · rintro ⟨hcool, hpnl⟩
    refine ⟨?_, fun v hv => (hpnl v hv).symm⟩
    intro symbol untilNs huntil more inp _ later hlt
    have hreal : h.realNs ≤ later.realNs :=
      realNs_hostRun (hostStep mac eng h .restart).2 more
    have hcooling := (isCooling_iff hstart symbol).mpr ⟨untilNs, huntil, by omega⟩
    rw [hcool symbol] at hcooling
    cases hcooling

/-- Nothing a run saves is more than the empty snapshot. -/
theorem load_hostRun (hload : RiskPersistence.load h.redis = .default) (acts : List HostAction) :
    RiskPersistence.load (hostRun mac eng h acts).redis = .default := by
  refine runState_invariant_all (hostStep mac eng)
    (fun s => RiskPersistence.load s.redis = .default) ?_ hload acts
  intro s a hs
  cases a with
  | save => exact RiskPersistence.load_save _ _
  | act | advance | restart => exact hs

end Step

/-- For every session and every placement of its restarts: the controls survive each restart exactly
if there is nothing to lose at any of them. -/
theorem controls_survive_run_iff (mac : Mac) (eng : RiskEngine) (redis : RedisKeys) (realNs : ℕ)
    (acts : List HostAction) :
    (∀ pre post, acts = pre ++ .restart :: post →
      ControlsSurvive mac eng (hostRun mac eng (.boot eng redis realNs) pre)) ↔
    ∀ pre post, acts = pre ++ .restart :: post →
      NothingToLose (hostRun mac eng (.boot eng redis realNs) pre) := by
  have hstart : ∀ pre, (hostRun mac eng (.boot eng redis realNs) pre).startNs
      ≤ (hostRun mac eng (.boot eng redis realNs) pre).realNs :=
    fun pre => startNs_hostRun (Nat.le_refl _) pre
  refine forall_congr' fun pre => forall_congr' fun post => forall_congr' fun _ => ?_
  exact controlsSurvive_iff (hstart pre)

/-- The engine's slippage cooldown of symbol 1 for a minute. -/
def engageMinute (st : RiskState) : RiskState :=
  { st with cooldowns := (CooldownRegistry.engage st.cooldowns ⟨1⟩ 60000000000 .slippage).2 }

/-- A save and a restart one second into the cooldown. -/
def restartInCooldown : List HostAction :=
  [.act (.write engageMinute), .save, .advance 1000000000, .restart]

/-- The cooldown has fifty-nine seconds to go, and nothing is left of it. -/
theorem cooldown_lost_at_restart :
    ¬ ∀ pre post, restartInCooldown = pre ++ .restart :: post →
      ControlsSurvive (fun _ _ => Vector.replicate 32 0) (makeEngineWith Defaults.risk)
        (hostRun (fun _ _ => Vector.replicate 32 0) (makeEngineWith Defaults.risk)
          (.boot (makeEngineWith Defaults.risk) ∅ 0) pre) := by
  intro h
  have hsurvive := h [.act (.write engageMinute), .save, .advance 1000000000] [] rfl
  have hlose := (controlsSurvive_iff (startNs_hostRun (Nat.le_refl _) _)).mp hsurvive
  have hcool := hlose.1 ⟨1⟩
  revert hcool
  decide +kernel

end Hedge.Risk
