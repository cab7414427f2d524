import Hedge.Supervisor.Detector

/-!
# The persisted state of the supervisor

Reference: `hedge-supervisor/src/state.rs`, `persist_state_for` and `rehydrate_from_state` in
`hedge-supervisor/src/supervisor.rs`.

The state is saved as a JSON document. A map is written as an object in the reverse order of its
entries: the order of a `HashMap` is not specified, and this one is read back to the same map.
-/

namespace Hedge.Supervisor

open Hedge Hedge.Common

/-! ## State -/

/-- `STATE_VERSION`. -/
def stateVersion : UInt32 := 1

/-- Audit record of a broker failover. -/
structure BrokerFailoverRecord where
  failing : BrokerId
  backup : BrokerId
  tsNs : UInt64
deriving DecidableEq, Repr

/-- Persisted supervisor state. -/
structure SupervisorState where
  version : UInt32
  wsAttempts : Attempts
  activeBroker : Option BrokerId
  lastFailover : Option BrokerFailoverRecord
  activeOllamaModel : Option String
  redisDegraded : Bool
  activeMitigations : Map String String
  updatedTsNs : UInt64

namespace SupervisorState

/-- `SupervisorState::default`. -/
def default : SupervisorState where
  version := stateVersion
  wsAttempts := ∅
  activeBroker := none
  lastFailover := none
  activeOllamaModel := none
  redisDegraded := false
  activeMitigations := ∅
  updatedTsNs := 0

/-- `record_ws_attempt`. -/
def recordWsAttempt (s : SupervisorState) (source : String) : SupervisorState :=
  { s with wsAttempts :=
      s.wsAttempts.insert source (((s.wsAttempts.lookup source).getD 0).saturatingAdd 1) }

/-- `record_failover`. -/
def recordFailover (s : SupervisorState) (failing backup : BrokerId) (tsNs : UInt64) :
    SupervisorState :=
  { s with activeBroker := some backup, lastFailover := some ⟨failing, backup, tsNs⟩ }

/-- `record_ollama_swap`. -/
def recordOllamaSwap (s : SupervisorState) (fallback : String) : SupervisorState :=
  { s with activeOllamaModel := some fallback }

/-- `set_redis_degraded`. -/
def setRedisDegraded (s : SupervisorState) (degraded : Bool) : SupervisorState :=
  { s with redisDegraded := degraded }

/-- `record_mitigation`. -/
def recordMitigation (s : SupervisorState) (source mitigation : String) : SupervisorState :=
  { s with activeMitigations := s.activeMitigations.insert source mitigation }

/-- `touch`. -/
def touch (s : SupervisorState) (tsNs : UInt64) : SupervisorState := { s with updatedTsNs := tsNs }

/-- The update `persist_state_for` makes; a mismatched pair changes nothing. -/
def updateFor (event : FailureEvent) (action : RecoveryAction) (s : SupervisorState) :
    SupervisorState :=
  match event.kind, action.kind with
  | .wsDisconnected source, .reconnect _ _ _ => s.recordWsAttempt source
  | .brokerErrorRateBreach _, .brokerFailover failing backup =>
    s.recordFailover failing backup event.tsNs
  | .redisUnavailable, .redisReconnect => s.setRedisDegraded true
  | .externalApiLatencySpike source, .applyMitigation _ mitigation =>
    s.recordMitigation source mitigation
  | .ollamaUnresponsive _, .ollamaFallback _ fallback => s.recordOllamaSwap fallback
  | _, _ => s

end SupervisorState

/-! ## Encoding -/

section Codec

variable {α : Type*}

/-- A map on the wire. -/
def mapToJson (write : α → Json) (m : Map String α) : Json :=
  .obj (m.entries.reverse.map fun entry => (entry.1, write entry.2))

/-- Insert the fields of an object one after the other; the last one of a name counts. -/
def readEntries (read : Json → Option α) :
    List (String × Json) → Map String α → Option (Map String α)
  | [], m => some m
  | (name, v) :: fields, m => (read v).bind fun a => readEntries read fields (m.insert name a)

/-- Read a map. -/
def mapFromJson (read : Json → Option α) : Json → Option (Map String α)
  | .obj fields => readEntries read fields ∅
  | _ => none

/-- An option on the wire. -/
def optionToJson (write : α → Json) : Option α → Json
  | none => .null
  | some a => write a

/-- Read an option: `null` is none. -/
def optionFromJson (read : Json → Option α) : Json → Option (Option α)
  | .null => some none
  | v => (read v).map some

end Codec

/-- A broker id on the wire. -/
def brokerIdToJson (broker : BrokerId) : Json := .str broker.debug

namespace BrokerFailoverRecord

def toJson (record : BrokerFailoverRecord) : Json :=
  .obj [("from", brokerIdToJson record.failing), ("to", brokerIdToJson record.backup),
    ("ts_ns", .ofU64 record.tsNs)]

def fromJson : Json → Option BrokerFailoverRecord :=
  readStruct 3 fun v => do
    let failing ← v.required 0 "from" readBrokerId
    let backup ← v.required 1 "to" readBrokerId
    let tsNs ← v.required 2 "ts_ns" Json.asU64
    return ⟨failing, backup, tsNs⟩

end BrokerFailoverRecord

namespace SupervisorState

def toJson (s : SupervisorState) : Json :=
  .obj [("version", .ofU32 s.version),
    ("ws_attempts", mapToJson .ofU32 s.wsAttempts),
    ("active_broker", optionToJson brokerIdToJson s.activeBroker),
    ("last_failover", optionToJson BrokerFailoverRecord.toJson s.lastFailover),
    ("active_ollama_model", optionToJson .str s.activeOllamaModel),
    ("redis_degraded", .bool s.redisDegraded),
    ("active_mitigations", mapToJson .str s.activeMitigations),
    ("updated_ts_ns", .ofU64 s.updatedTsNs)]

def fromJson : Json → Option SupervisorState :=
  readStruct 8 fun v => do
    let version ← v.defaulted 0 "version" Json.asU32 stateVersion
    let wsAttempts ← v.defaulted 1 "ws_attempts" (mapFromJson Json.asU32) ∅
    let activeBroker ← v.defaulted 2 "active_broker" (optionFromJson readBrokerId) none
    let lastFailover ←
      v.defaulted 3 "last_failover" (optionFromJson BrokerFailoverRecord.fromJson) none
    let activeOllamaModel ← v.defaulted 4 "active_ollama_model" (optionFromJson Json.asStr) none
    let redisDegraded ← v.defaulted 5 "redis_degraded" Json.asBool false
    let activeMitigations ← v.defaulted 6 "active_mitigations" (mapFromJson Json.asStr) ∅
    let updatedTsNs ← v.defaulted 7 "updated_ts_ns" Json.asU64 0
    return ⟨version, wsAttempts, activeBroker, lastFailover, activeOllamaModel, redisDegraded,
      activeMitigations, updatedTsNs⟩

end SupervisorState

/-! ## Reading back what was written -/

section RoundTrip

variable {α : Type*} {write : α → Json} {read : Json → Option α}

theorem readEntries_map (h : ∀ a, read (write a) = some a)
    (entries : List (Sigma fun _ : String => α)) (m : Map String α) :
    readEntries read (entries.map fun entry => (entry.1, write entry.2)) m
      = some (entries.foldl (fun m entry => m.insert entry.1 entry.2) m) := by
  induction entries generalizing m with
  | nil => rfl
  | cons entry entries ih =>
    rw [List.map_cons, readEntries, h, Option.bind_some, ih]
    rfl

/-- Inserting the entries of a map from its last one on builds the map. -/
theorem entries_foldr_insert (entries : List (Sigma fun _ : String => α))
    (hnodup : entries.NodupKeys) :
    (entries.foldr (fun entry m => AList.insert entry.1 entry.2 m) (∅ : Map String α)).entries
      = entries := by
  induction entries with
  | nil => rfl
  | cons entry entries ih =>
    obtain ⟨hfresh, hnodup⟩ := List.nodupKeys_cons.mp hnodup
    rw [List.foldr_cons, AList.entries_insert, ih hnodup, List.kerase_of_notMem_keys hfresh]

theorem mapFromJson_mapToJson (h : ∀ a, read (write a) = some a) (m : Map String α) :
    mapFromJson read (mapToJson write m) = some m := by
  rw [mapToJson, mapFromJson, readEntries_map h, List.foldl_reverse]
  exact congrArg some (AList.ext (entries_foldr_insert m.entries m.nodupKeys))

theorem optionFromJson_optionToJson (h : ∀ a, read (write a) = some a)
    (hnull : ∀ a, write a ≠ .null) (o : Option α) :
    optionFromJson read (optionToJson write o) = some o := by
  cases o with
  | none => rfl
  | some a =>
    have hread := h a
    have hne := hnull a
    rw [optionToJson]
    unfold optionFromJson
    split
    next heq => exact absurd heq hne
    next => rw [hread, Option.map_some]

end RoundTrip

theorem readBrokerId_brokerIdToJson (broker : BrokerId) :
    readBrokerId (brokerIdToJson broker) = some broker := by
  cases broker <;> rfl

theorem BrokerFailoverRecord.fromJson_toJson (record : BrokerFailoverRecord) :
    BrokerFailoverRecord.fromJson record.toJson = some record := by
  simp [fromJson, toJson, readStruct, Json.isStruct, Json.required, Json.structField,
    readBrokerId_brokerIdToJson]

/-- A saved state reads back as it was. -/
theorem SupervisorState.fromJson_toJson (s : SupervisorState) :
    SupervisorState.fromJson s.toJson = some s := by
  have hattempts := mapFromJson_mapToJson Json.asU32_ofU32 s.wsAttempts
  have hbroker := optionFromJson_optionToJson readBrokerId_brokerIdToJson (fun _ => nofun)
    s.activeBroker
  have hfailover := optionFromJson_optionToJson BrokerFailoverRecord.fromJson_toJson
    (fun _ => nofun) s.lastFailover
  have hmodel := optionFromJson_optionToJson Json.asStr_str (fun _ => nofun) s.activeOllamaModel
  have hmitigations := mapFromJson_mapToJson Json.asStr_str s.activeMitigations
  simp [fromJson, toJson, readStruct, Json.isStruct, Json.defaulted, Json.structField, hattempts,
    hbroker, hfailover, hmodel, hmitigations]

end Hedge.Supervisor
