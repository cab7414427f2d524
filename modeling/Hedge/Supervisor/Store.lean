import Hedge.Common.Pool
import Hedge.Supervisor.Pipeline

/-!
# Concurrent saves of the supervisor state

Reference: `SupervisorStateStore` and `save_to_path` in `hedge-supervisor/src/state.rs`.

Handles of one store share the state and the path. A call of `update_and_save` changes the state
under the lock, takes a snapshot under the lock, writes it to the temporary file next to the path
and renames that file. Between these sections other calls may run, so the file may end with a
snapshot older than the state. It does not when no call changes the state while another one is
between its snapshot and its rename.
-/

namespace Hedge.Supervisor

open Hedge Hedge.Common

namespace Store

/-! ## Sections -/

/-- The state in memory, the temporary file and the file at the path. -/
structure Shared where
  memory : SupervisorState
  tmp : Option Json
  file : Option Json

/-- Where a call of `update_and_save` is, and what it remembers. -/
inductive Call where
  | idle
  | updating (update : SupervisorState → SupervisorState) (nowNs : UInt64)
  | snapshotting
  | writing (snapshot : SupervisorState)
  | written

/-- The store with the calls in flight. -/
abbrev Config := Pool Shared Call

/-- A store with no call in flight. -/
def Config.new (shared : Shared) : Config := ⟨shared, fun _ => .idle⟩

/-- Which call starts, or which one moves. -/
inductive Label where
  | start (tid : ℕ) (update : SupervisorState → SupervisorState) (nowNs : UInt64)
  | advance (tid : ℕ)

/-- One section of one call, with its result when it returns. The temporary file is gone when
another call has renamed it. -/
def advance (cfg : Config) (tid : ℕ) : Option (Except StateError Unit) × Config :=
  match cfg.threads tid with
  | .idle => (none, cfg)
  | .updating update nowNs =>
    (none, cfg.goto tid .snapshotting
      { cfg.shared with memory := (update cfg.shared.memory).touch nowNs })
  | .snapshotting => (none, cfg.goto tid (.writing cfg.shared.memory) cfg.shared)
  | .writing snapshot =>
    (none, cfg.goto tid .written { cfg.shared with tmp := some snapshot.toJson })
  | .written => match cfg.shared.tmp with
    | none => (some (.error .io), cfg.goto tid .idle cfg.shared)
    | some v => (some (.ok ()), cfg.goto tid .idle { cfg.shared with tmp := none, file := some v })

/-- A call only starts on an idle thread. -/
def startCall (cfg : Config) (tid : ℕ) (update : SupervisorState → SupervisorState)
    (nowNs : UInt64) : Config :=
  match cfg.threads tid with
  | .idle => cfg.goto tid (.updating update nowNs) cfg.shared
  | _ => cfg

/-- One step of a schedule. -/
def step (cfg : Config) : Label → Option (Except StateError Unit) × Config
  | .start tid update nowNs => (none, startCall cfg tid update nowNs)
  | .advance tid => advance cfg tid

/-- The store after a schedule. -/
abbrev run (shared : Shared) (labels : List Label) : Config :=
  runState step (Config.new shared) labels

/-! ## A call that runs alone -/

/-- The sections of one call, one after the other. -/
def alone (tid : ℕ) (update : SupervisorState → SupervisorState) (nowNs : UInt64) : List Label :=
  [.start tid update nowNs, .advance tid, .advance tid, .advance tid, .advance tid]

/-- Alone, a call saves the state it has updated, as `World.step` has it. -/
theorem runState_alone {cfg : Config} {tid : ℕ} (hidle : cfg.threads tid = .idle)
    (update : SupervisorState → SupervisorState) (nowNs : UInt64) :
    runState step cfg (alone tid update nowNs) = cfg.goto tid .idle
      ⟨(update cfg.shared.memory).touch nowNs, none,
        some ((update cfg.shared.memory).touch nowNs).toJson⟩ := by
  simp [alone, step, startCall, advance, hidle]

/-! ## Undisturbed saves -/

/-- The call is between its snapshot and its rename. -/
def Call.savesSnapshot : Call → Bool
  | writing _ | written => true
  | idle | updating _ _ | snapshotting => false

/-- The call has changed the state and not saved it yet. -/
def Call.unsaved : Call → Bool
  | snapshotting | writing _ | written => true
  | idle | updating _ _ => false

/-- The next section of the call changes the state. -/
def Call.changesState : Call → Bool
  | updating _ _ => true
  | idle | snapshotting | writing _ | written => false

/-- The step does not change the state under a call that is between its snapshot and its rename. -/
def Undisturbed (cfg : Config) : Label → Prop
  | .start _ _ _ => True
  | .advance tid =>
    (cfg.threads tid).changesState = true → ∀ other, (cfg.threads other).savesSnapshot = false

/-- What the call brings to the file is the state in memory; what it has written may have been
renamed by another call. -/
def Call.Current (shared : Shared) : Call → Prop
  | writing snapshot => snapshot = shared.memory
  | written => shared.tmp = some shared.memory.toJson ∨
      shared.tmp = none ∧ shared.file = some shared.memory.toJson
  | idle | updating _ _ | snapshotting => True

/-- The file is the state in memory, or some call has yet to save it. -/
def Covered (cfg : Config) : Prop :=
  cfg.shared.file = some cfg.shared.memory.toJson ∨ ∃ tid, (cfg.threads tid).unsaved = true

/-! ## What a section keeps -/

theorem Call.current_of_savesSnapshot_eq_false {call : Call} {shared : Shared}
    (h : call.savesSnapshot = false) : call.Current shared := by
  cases call with
  | writing snapshot => cases h
  | written => cases h
  | idle => trivial
  | updating update nowNs => trivial
  | snapshotting => trivial

/-- Writing the state to the temporary file, or renaming it, leaves every other call current. -/
theorem Call.Current.of_saves {call : Call} {shared shared' : Shared} (h : call.Current shared)
    (hmemory : shared'.memory = shared.memory)
    (hsaves : shared'.tmp = some shared.memory.toJson ∨
      shared'.tmp = none ∧ shared'.file = some shared.memory.toJson) : call.Current shared' := by
  cases call with
  | writing snapshot => exact h.trans hmemory.symm
  | written =>
    change shared'.tmp = some shared'.memory.toJson ∨
      shared'.tmp = none ∧ shared'.file = some shared'.memory.toJson
    rwa [hmemory]
  | idle => trivial
  | updating update nowNs => trivial
  | snapshotting => trivial

theorem current_goto {cfg : Config} {tid : ℕ} {next : Call} {shared : Shared}
    (h : ∀ t, t ≠ tid → (cfg.threads t).Current shared) (hnext : next.Current shared) (t : ℕ) :
    ((cfg.goto tid next shared).threads t).Current (cfg.goto tid next shared).shared :=
  Pool.forall_threads_goto (P := fun _ (call : Call) => call.Current shared) h hnext t

/-- An undisturbed step leaves every call current. -/
theorem current_step {cfg : Config} {label : Label} (hlabel : Undisturbed cfg label)
    (h : ∀ tid, (cfg.threads tid).Current cfg.shared) :
    ∀ tid, ((step cfg label).2.threads tid).Current (step cfg label).2.shared := by
  cases label with
  | start tid update nowNs =>
    change ∀ t, ((startCall cfg tid update nowNs).threads t).Current
      (startCall cfg tid update nowNs).shared
    unfold startCall
    split
    · exact current_goto (fun t _ => h t) trivial
    · exact h
  | advance tid =>
    have hself := h tid
    change ∀ t, ((advance cfg tid).2.threads t).Current (advance cfg tid).2.shared
    unfold advance
    cases hcall : cfg.threads tid with
    | idle => exact h
    | updating update nowNs =>
      have hnone := hlabel (by rw [hcall]; rfl)
      exact current_goto (fun t _ => Call.current_of_savesSnapshot_eq_false (hnone t)) trivial
    | snapshotting =>
      exact current_goto (fun t _ => h t) rfl
    | writing snapshot =>
      rw [hcall] at hself
      obtain rfl : snapshot = cfg.shared.memory := hself
      exact current_goto (fun t _ => (h t).of_saves rfl (.inl rfl)) (.inl rfl)
    | written =>
      rw [hcall] at hself
      cases htmp : cfg.shared.tmp with
      | none =>
        exact current_goto (fun t _ => h t) trivial
      | some v =>
        rcases hself with hv | ⟨hnone, -⟩
        · obtain rfl := Option.some.inj (htmp.symm.trans hv)
          exact current_goto (fun t _ => (h t).of_saves rfl (.inr ⟨rfl, rfl⟩)) trivial
        · rw [hnone] at htmp
          cases htmp

/-- A call that moves without a change to the store leaves it covered, if it is unsaved after the
move when it was before. -/
theorem Covered.goto {cfg : Config} (h : Covered cfg) {tid : ℕ} {next : Call} {shared : Shared}
    (hmemory : shared.memory = cfg.shared.memory) (hfile : shared.file = cfg.shared.file)
    (hnext : (cfg.threads tid).unsaved = true → next.unsaved = true) :
    Covered (cfg.goto tid next shared) := by
  rcases h with hsaved | ⟨other, hother⟩
  · exact .inl (by rw [Pool.shared_goto, hmemory, hfile, hsaved])
  · refine .inr ⟨other, ?_⟩
    by_cases hsame : other = tid
    · subst hsame
      rw [Pool.threads_goto_self]
      exact hnext hother
    · rwa [Pool.threads_goto_of_ne cfg hsame]

/-- A step keeps the store covered. -/
theorem covered_step {cfg : Config} {label : Label}
    (hcurrent : ∀ tid, (cfg.threads tid).Current cfg.shared) (h : Covered cfg) :
    Covered (step cfg label).2 := by
  cases label with
  | start tid update nowNs =>
    change Covered (startCall cfg tid update nowNs)
    unfold startCall
    split
    next hidle => exact h.goto rfl rfl fun hunsaved => by rw [hidle] at hunsaved; cases hunsaved
    next => exact h
  | advance tid =>
    have hself := hcurrent tid
    change Covered (advance cfg tid).2
    unfold advance
    cases hcall : cfg.threads tid with
    | idle => exact h
    | updating update nowNs => exact .inr ⟨tid, by rw [Pool.threads_goto_self]; rfl⟩
    | snapshotting => exact h.goto rfl rfl fun _ => rfl
    | writing snapshot => exact h.goto rfl rfl fun _ => rfl
    | written =>
      rw [hcall] at hself
      cases htmp : cfg.shared.tmp with
      | none =>
        rcases hself with hv | ⟨-, hfile⟩
        · rw [hv] at htmp
          cases htmp
        · exact .inl hfile
      | some v =>
        rcases hself with hv | ⟨hnone, -⟩
        · exact .inl (htmp.symm.trans hv)
        · rw [hnone] at htmp
          cases htmp

/-- A call that returns `Ok` has saved the state. -/
theorem covered_of_ok {cfg : Config} {label : Label}
    (hcurrent : ∀ tid, (cfg.threads tid).Current cfg.shared)
    (hok : (step cfg label).1 = some (.ok ())) : Covered (step cfg label).2 := by
  cases label with
  | start tid update nowNs => cases hok
  | advance tid =>
    have hself := hcurrent tid
    change (advance cfg tid).1 = _ at hok
    change Covered (advance cfg tid).2
    unfold advance at hok ⊢
    cases hcall : cfg.threads tid with
    | idle => simp [hcall] at hok
    | updating update nowNs => simp [hcall] at hok
    | snapshotting => simp [hcall] at hok
    | writing snapshot => simp [hcall] at hok
    | written =>
      rw [hcall] at hself
      cases htmp : cfg.shared.tmp with
      | none => simp [hcall, htmp] at hok
      | some v =>
        rcases hself with hv | ⟨hnone, -⟩
        · exact .inl (htmp.symm.trans hv)
        · rw [hnone] at htmp
          cases htmp

/-! ## What is on disk when all calls have returned -/

/-- Once some call has returned, each of them with `Ok`, and none is in flight, the file decodes to
the state in memory. -/
def SavesHold (shared : Shared) (labels : List Label) : Prop :=
  some (.ok ()) ∈ runOutputs step (Config.new shared) labels →
  (∀ e, some (.error e) ∉ runOutputs step (Config.new shared) labels) →
  (∀ tid, (run shared labels).threads tid = .idle) →
  (run shared labels).shared.file.bind SupervisorState.fromJson
    = some (run shared labels).shared.memory

/-- The file keeps up with the state in every run in which no call changes the state while another
one is between its snapshot and its rename. -/
theorem saves_hold_of_undisturbed (shared : Shared) (labels : List Label)
    (h : ∀ pre label post, labels = pre ++ label :: post → Undisturbed (run shared pre) label) :
    SavesHold shared labels := by
  intro hok _ hidle
  have hcurrent : ∀ pre post, labels = pre ++ post →
      ∀ tid, ((run shared pre).threads tid).Current (run shared pre).shared :=
    runState_invariant_split step (fun cfg => ∀ tid, (cfg.threads tid).Current cfg.shared)
      (fun _ _ hcurrent hlabel => current_step hlabel hcurrent) (fun _ => trivial) h
  obtain ⟨pre, label, post, hsplit, hreturns⟩ := exists_split_of_mem_runOutputs hok
  have hfirst : Covered (step (run shared pre) label).2 :=
    covered_of_ok (hcurrent pre (label :: post) hsplit) hreturns
  have hcovered : Covered (run shared labels) := by
    rw [hsplit, run, runState_append, runState_cons]
    refine runState_invariant_along step Covered hfirst ?_
    intro pre' label' post' hsplit' hprev
    refine covered_step ?_ hprev
    have hhere := hcurrent (pre ++ label :: pre') (label' :: post') (by rw [hsplit, hsplit']; simp)
    rwa [run, runState_append, runState_cons] at hhere
  rcases hcovered with hfile | ⟨tid, hunsaved⟩
  · rw [hfile, Option.bind_some, SupervisorState.fromJson_toJson]
  · rw [hidle tid] at hunsaved
    cases hunsaved

/-- A store that has never been saved. -/
def unsavedStore : Shared := ⟨.default, none, none⟩

/-- Two calls that both count a reconnect before either of them takes its snapshot. Call 0 writes and
renames while call 1 holds its own. -/
def overlappingSaves : List Label :=
  [.start 0 (·.recordWsAttempt "nse_l1") 1, .start 1 (·.recordWsAttempt "bse_l1") 2, .advance 0,
    .advance 1, .advance 1, .advance 0, .advance 0, .advance 0, .advance 1, .advance 1]

/-- The file ends with both counts. -/
theorem saves_hold_overlappingSaves :
    (run unsavedStore overlappingSaves).shared.file.bind SupervisorState.fromJson
      = some (run unsavedStore overlappingSaves).shared.memory := by
  have hbefore : ∀ tid, ((run unsavedStore (overlappingSaves.take 2)).threads tid).savesSnapshot
      = false
    | 0 => rfl
    | 1 => rfl
    | _ + 2 => rfl
  have hbetween : ∀ tid, ((run unsavedStore (overlappingSaves.take 3)).threads tid).savesSnapshot
      = false
    | 0 => rfl
    | 1 => rfl
    | _ + 2 => rfl
  have hidle : ∀ tid, (run unsavedStore overlappingSaves).threads tid = .idle
    | 0 => rfl
    | 1 => rfl
    | _ + 2 => rfl
  have houtputs : runOutputs step (Config.new unsavedStore) overlappingSaves
      = [none, none, none, none, none, none, none, some (.ok ()), none, some (.ok ())] := rfl
  refine saves_hold_of_undisturbed unsavedStore overlappingSaves ?_ (by simp [houtputs])
    (by simp [houtputs]) hidle
  refine forall_split_cons trivial (forall_split_cons trivial ?_)
  refine forall_split_cons (fun _ => hbefore) (forall_split_cons (fun _ => hbetween) ?_)
  refine forall_split_cons nofun (forall_split_cons nofun (forall_split_cons nofun ?_))
  refine forall_split_cons nofun (forall_split_cons nofun (forall_split_cons nofun ?_))
  exact forall_split_nil

/-- Call 1 saves both updates while call 0 still holds the snapshot of the first one. -/
def overtakenSave : List Label :=
  [.start 0 (·.recordWsAttempt "nse_l1") 1, .advance 0, .advance 0]
    ++ alone 1 (·.recordWsAttempt "bse_l1") 2 ++ [.advance 0, .advance 0]

/-- The file ends with the first update only. -/
theorem not_savesHold_overtakenSave :
    ¬ ∀ (shared : Shared) (labels : List Label), SavesHold shared labels := by
  intro h
  have hidle : ∀ tid, (run unsavedStore overtakenSave).threads tid = .idle
    | 0 => rfl
    | 1 => rfl
    | _ + 2 => rfl
  have houtputs : runOutputs step (Config.new unsavedStore) overtakenSave
      = [none, none, none, none, none, none, none, some (.ok ()), none, some (.ok ())] := rfl
  have hsaved := h unsavedStore overtakenSave (by simp [houtputs]) (by simp [houtputs]) hidle
  have hcount := congrArg (Option.map fun s => s.wsAttempts.lookup "bse_l1") hsaved
  exact absurd hcount (by decide)

end Store

end Hedge.Supervisor
