import Hedge.Common.Json
import Hedge.Common.Pool
import Mathlib.Tactic.Abel

/-!
# Shadowed outputs and their retry buffer

Reference: `persist_output`, `_buffer_for_retry`, `drain_persist_buffer`, `stop` and `_poll_loop` in
`hedge_warm_ai/shadow/engine.py`.

An output that the sink does not take waits in a bounded buffer. A drain takes all of the buffer and
puts back what fails again. Calls, drains and the poll task are interleaved at every `await`.
Outputs are lost exactly when `stop` cancels the poll task while its drain holds some, and overflows
evict the oldest output as long as none is put back behind a newer one.
-/

namespace Hedge.Ai

open Hedge.Common

/-! ## Model -/

/-- `ShadowKind`. -/
inductive ShadowKind where
  | aiRank
  | aiRegimeChanged
  | aiPsychStability
  | aiPriorityChanged
  | aiNewsImpact
  | aiJournalEntry
  | memPrevDay
  | other
deriving DecidableEq

/-- `ShadowedOutput`. -/
structure ShadowedOutput where
  kind : ShadowKind
  component : String
  payload : List (String × Json)
  tsNs : ℤ
  correlationId : Option String

/-- `bool(value)` of a value that was read from JSON. -/
def truthy : Json → Bool
  | .null => false
  | .bool b => b
  | .num (.posInt n) => n ≠ 0
  | .num (.negInt n) => n ≠ 0
  | .num (.float q) => q ≠ 0
  | .str s => s ≠ ""
  | .arr elems => !elems.isEmpty
  | .obj fields => !fields.isEmpty

/-- `_is_marked_shadow`. -/
def isMarkedShadow (output : ShadowedOutput) : Bool :=
  truthy (((Json.obj output.payload).get "shadow").getD (.bool false))

/-- `ShadowModeConfig.persistence_buffer`. -/
structure ShadowModeConfig where
  persistenceBuffer : ℕ
  persistenceBuffer_pos : 0 < persistenceBuffer

namespace ShadowModeService

/-- An output that `persist_output` has accepted, and how many were accepted before it. -/
structure Accepted where
  number : ℕ
  output : ShadowedOutput

/-- An overflow of the buffer: the output that is evicted, and those that stay. -/
structure Overflow where
  evicted : Accepted
  buffered : List Accepted

/-- Where a `drain_persist_buffer` is, and what it remembers. -/
inductive Drain where
  | locking
  | flushing (output : Accepted) (pending : List Accepted) (flushed : ℕ)
  | rebuffering (output : Accepted) (pending : List Accepted) (flushed : ℕ)
  | returned (flushed : ℕ)

/-- Where a call of `persist_output` or `drain_persist_buffer` is. -/
inductive Call where
  | idle
  | persisting (output : Accepted)
  | buffering (output : Accepted)
  | forwarding (output : Accepted)
  | draining (drain : Drain)

/-- Where `start` and the poll task are. -/
inductive Poll where
  | unstarted
  | starting
  | created
  | sleeping
  | refreshing
  | draining (drain : Drain)
  | ended

/-- The service, with what it has accepted, what the sink has stored and the overflows it logged.
`_started` is set when `poll` is not `unstarted`. -/
structure Service where
  buffer : List Accepted
  stopped : Bool
  poll : Poll
  accepted : List Accepted
  stored : List Accepted
  overflows : List Overflow

/-- A new service. -/
def Service.new : Service := ⟨[], false, .unstarted, [], [], []⟩

/-- The `while` loop of `_buffer_for_retry`. -/
def overflow (capacity : ℕ) : List Accepted → List Overflow × List Accepted
  | [] => ([], [])
  | output :: buffer =>
    if capacity < (output :: buffer).length then
      let (overflows, rest) := overflow capacity buffer
      (⟨output, buffer⟩ :: overflows, rest)
    else ([], output :: buffer)

/-- `_buffer_for_retry`, once it has the lock. -/
def Service.bufferForRetry (config : ShadowModeConfig) (s : Service) (output : Accepted) :
    Service :=
  let (overflows, buffer) := overflow config.persistenceBuffer (s.buffer ++ [output])
  { s with buffer := buffer, overflows := s.overflows ++ overflows }

/-- The sink stores an output. -/
def Service.store (s : Service) (output : Accepted) : Service :=
  { s with stored := s.stored ++ [output] }

/-- The loop of a drain goes on to the next output, or the drain returns. -/
def flush (flushed : ℕ) : List Accepted → Drain
  | [] => .returned flushed
  | output :: pending => .flushing output pending flushed

/-- One section of a drain; `ok` says that the sink did not raise. -/
def Drain.advance (config : ShadowModeConfig) (s : Service) (ok : Bool) : Drain → Service × Drain
  | .locking => ({ s with buffer := [] }, flush 0 s.buffer)
  | .flushing output pending flushed =>
    if ok then (s.store output, flush (flushed + 1) pending)
    else (s, .rebuffering output pending flushed)
  | .rebuffering output pending flushed => (s.bufferForRetry config output, flush flushed pending)
  | .returned flushed => (s, .returned flushed)

/-- What a drain that has returned says it has flushed. -/
def Drain.result : Drain → Option ℕ
  | .returned flushed => some flushed
  | _ => none

/-- A caller goes on with its drain until the drain returns. -/
def Call.ofDrain : Drain → Call
  | .returned _ => .idle
  | drain => .draining drain

/-- One section of a call: what it returns, and where it is next. -/
def Call.advance (config : ShadowModeConfig) (s : Service) (ok : Bool) :
    Call → Option ℕ × Service × Call
  | .idle => (none, s, .idle)
  | .persisting output =>
    if ok then (none, s.store output, .forwarding output) else (none, s, .buffering output)
  | .buffering output => (none, s.bufferForRetry config output, .forwarding output)
  | .forwarding _ => (none, s, .idle)
  | .draining drain =>
    let (s', drain') := drain.advance config s ok
    (drain'.result, s', .ofDrain drain')

/-- The head of the loop in `_poll_loop`. -/
def loopHead (s : Service) : Poll := if s.stopped then .ended else .sleeping

/-- The poll task goes on with its drain until the drain returns. -/
def Poll.ofDrain (s : Service) : Drain → Poll
  | .returned _ => loopHead s
  | drain => .draining drain

/-- One section of `start`, or of the poll task that it creates. -/
def Poll.advance (config : ShadowModeConfig) (s : Service) (ok : Bool) : Poll → Service × Poll
  | .unstarted => (s, .unstarted)
  | .starting => (s, .created)
  | .created => (s, loopHead s)
  | .sleeping => (s, if s.stopped then .ended else .refreshing)
  | .refreshing => (s, if s.buffer.isEmpty then loopHead s else .draining .locking)
  | .draining drain =>
    let (s', drain') := drain.advance config s ok
    (s', .ofDrain s' drain')
  | .ended => (s, .ended)

/-- `persist_output` up to its first `await`. -/
def persistOutput (s : Service) (output : ShadowedOutput) : Service × Call :=
  if isMarkedShadow output then
    let accepted : Accepted := ⟨s.accepted.length, output⟩
    ({ s with accepted := s.accepted ++ [accepted] }, .persisting accepted)
  else (s, .idle)

/-- `start` up to its first `await`. -/
def Service.start (s : Service) : Service :=
  match s.poll with
  | .unstarted => { s with stopped := false, poll := .starting }
  | _ => s

/-- `stop`: a poll task that has been created is cancelled where it awaits. -/
def Service.stop (s : Service) : Service :=
  if s.stopped then s
  else match s.poll with
    | .unstarted | .starting => { s with stopped := true }
    | _ => { s with stopped := true, poll := .ended }

/-- The service with the calls in flight. -/
abbrev Config := Pool Service Call

/-- A new service with no call in flight. -/
def Config.new : Config := ⟨.new, fun _ => .idle⟩

/-- Which call starts, or who goes on; `ok` is false when what is awaited has raised. -/
inductive Label where
  | persistOutput (tid : ℕ) (output : ShadowedOutput)
  | drainPersistBuffer (tid : ℕ)
  | resume (tid : ℕ) (ok : Bool)
  | start
  | poll (ok : Bool)
  | stop

/-- One step of a schedule; a thread starts a call when it has none. -/
def step (config : ShadowModeConfig) (cfg : Config) : Label → Option ℕ × Config
  | .persistOutput tid output => match cfg.threads tid with
    | .idle =>
      let (s, call) := persistOutput cfg.shared output
      (none, cfg.goto tid call s)
    | _ => (none, cfg)
  | .drainPersistBuffer tid => match cfg.threads tid with
    | .idle => (none, cfg.goto tid (.draining .locking) cfg.shared)
    | _ => (none, cfg)
  | .resume tid ok =>
    let (result, s, call) := (cfg.threads tid).advance config cfg.shared ok
    (result, cfg.goto tid call s)
  | .start => (none, { cfg with shared := cfg.shared.start })
  | .poll ok =>
    let (s, poll) := cfg.shared.poll.advance config cfg.shared ok
    (none, { cfg with shared := { s with poll := poll } })
  | .stop => (none, { cfg with shared := cfg.shared.stop })

/-- The service after a schedule. -/
abbrev run (config : ShadowModeConfig) (labels : List Label) : Config :=
  runState (step config) .new labels

/-! ## What has to hold -/

/-- The outputs that a drain has taken and not dealt with. -/
def Drain.held : Drain → List Accepted
  | .flushing output pending _ | .rebuffering output pending _ => output :: pending
  | .locking | .returned _ => []

/-- The outputs that a call holds; one that is only forwarded to governance is not counted. -/
def Call.held : Call → List Accepted
  | .persisting output | .buffering output => [output]
  | .draining drain => drain.held
  | .idle | .forwarding _ => []

/-- The outputs that the poll task holds. -/
def Poll.held : Poll → List Accepted
  | .draining drain => drain.held
  | _ => []

/-- Every accepted output is stored, held by a call in progress, buffered or evicted. -/
def Kept (cfg : Config) : Prop :=
  ∀ output ∈ cfg.shared.accepted,
    output ∈ cfg.shared.stored ∨
    (output ∈ cfg.shared.poll.held ∨ ∃ tid, output ∈ (cfg.threads tid).held) ∨
    output ∈ cfg.shared.buffer ∨ ∃ o ∈ cfg.shared.overflows, o.evicted = output

/-- Every overflow has evicted the output that was accepted before all others in the buffer. -/
def EvictsOldest (cfg : Config) : Prop :=
  ∀ o ∈ cfg.shared.overflows, ∀ output ∈ o.buffered, o.evicted.number < output.number

/-- Outputs are kept all along a schedule. -/
def KeptThroughout (config : ShadowModeConfig) (labels : List Label) : Prop :=
  ∀ pre post, labels = pre ++ post → Kept (run config pre)

/-- Overflows evict the oldest output all along a schedule. -/
def EvictsOldestThroughout (config : ShadowModeConfig) (labels : List Label) : Prop :=
  ∀ pre post, labels = pre ++ post → EvictsOldest (run config pre)

/-- A stop does not cancel a poll task whose drain holds outputs. -/
def StopsBetween (cfg : Config) : Label → Prop
  | .stop => cfg.shared.stopped = false → cfg.shared.poll.held = []
  | _ => True

instance (cfg : Config) : (label : Label) → Decidable (StopsBetween cfg label)
  | .stop =>
    inferInstanceAs (Decidable (cfg.shared.stopped = false → cfg.shared.poll.held = []))
  | .persistOutput _ _ | .drainPersistBuffer _ | .resume _ _ | .start | .poll _ => isTrue trivial

/-- The output that the next section of a drain puts into the buffer. -/
def Drain.puts : Drain → Option Accepted
  | .rebuffering output _ _ => some output
  | _ => none

/-- The output that the next section of a call puts into the buffer. -/
def Call.puts : Call → Option Accepted
  | .buffering output => some output
  | .draining drain => drain.puts
  | _ => none

/-- The output that the next section of the poll task puts into the buffer. -/
def Poll.puts : Poll → Option Accepted
  | .draining drain => drain.puts
  | _ => none

/-- The output that a step puts into the buffer. -/
def Label.puts (cfg : Config) : Label → Option Accepted
  | .resume tid _ => (cfg.threads tid).puts
  | .poll _ => cfg.shared.poll.puts
  | _ => none

/-- A step puts no output behind one that was accepted after it. -/
def PutsInOrder (cfg : Config) (label : Label) : Prop :=
  ∀ output ∈ label.puts cfg, ∀ ahead ∈ cfg.shared.buffer, ahead.number < output.number

instance (cfg : Config) (label : Label) : Decidable (PutsInOrder cfg label) :=
  inferInstanceAs (Decidable (∀ output ∈ label.puts cfg, _))

/-! ## The retry buffer -/

/-- What an overflow evicts and what stays is what was there. -/
theorem evicted_append_overflow (capacity : ℕ) (buffer : List Accepted) :
    (overflow capacity buffer).1.map (·.evicted) ++ (overflow capacity buffer).2 = buffer := by
  fun_induction overflow capacity buffer with
  | case1 => rfl
  | case2 output buffer _ overflows rest heq ih =>
    rw [heq] at ih
    rw [List.map_cons, List.cons_append, ih]
  | case3 => rfl

theorem length_overflow_le (capacity : ℕ) (buffer : List Accepted) :
    (overflow capacity buffer).2.length ≤ capacity := by
  fun_induction overflow capacity buffer with
  | case1 => exact Nat.zero_le _
  | case2 output buffer _ overflows rest heq ih => rwa [heq] at ih
  | case3 output buffer hle => exact Nat.not_lt.mp hle

/-- From a buffer in the order of acceptance, an overflow evicts the oldest output each time. -/
theorem overflow_oldest {capacity : ℕ} {buffer : List Accepted}
    (h : buffer.Pairwise (·.number < ·.number)) :
    ∀ o ∈ (overflow capacity buffer).1, ∀ output ∈ o.buffered,
      o.evicted.number < output.number := by
  fun_induction overflow capacity buffer with
  | case1 => simp
  | case2 output buffer _ overflows rest heq ih =>
    obtain ⟨houtput, hbuffer⟩ := List.pairwise_cons.mp h
    intro o ho
    rcases List.mem_cons.mp ho with rfl | ho
    · exact houtput
    · rw [heq] at ih
      exact ih hbuffer o ho
  | case3 => simp

theorem overflow_sublist (capacity : ℕ) (buffer : List Accepted) :
    (overflow capacity buffer).2.Sublist buffer := by
  have h := List.sublist_append_right ((overflow capacity buffer).1.map (·.evicted))
    (overflow capacity buffer).2
  rwa [evicted_append_overflow] at h

/-- The outputs that no call holds. -/
def Service.settled (s : Service) : Multiset Accepted :=
  (s.stored : Multiset Accepted) + (s.buffer : Multiset Accepted)
    + (s.overflows.map (·.evicted) : Multiset Accepted)

/-- What a failed output pushes out of the buffer is settled as well. -/
theorem settled_bufferForRetry (config : ShadowModeConfig) (s : Service) (output : Accepted) :
    (s.bufferForRetry config output).settled = s.settled + {output} := by
  have hsplit : ((overflow config.persistenceBuffer (s.buffer ++ [output])).1.map (·.evicted) :
      Multiset Accepted) + ((overflow config.persistenceBuffer (s.buffer ++ [output])).2 :
        Multiset Accepted) = (s.buffer : Multiset Accepted) + {output} := by
    rw [Multiset.coe_add, evicted_append_overflow, ← Multiset.coe_add, Multiset.coe_singleton]
  rw [Service.settled, Service.bufferForRetry, List.map_append, ← Multiset.coe_add]
  dsimp only
  calc _ = (s.stored : Multiset Accepted) + (s.overflows.map (·.evicted) : Multiset Accepted)
        + ((overflow config.persistenceBuffer (s.buffer ++ [output])).1.map (·.evicted)
          + (overflow config.persistenceBuffer (s.buffer ++ [output])).2 : Multiset Accepted) := by
        abel
    _ = s.settled + {output} := by
        rw [hsplit, Service.settled]
        abel

theorem settled_store (s : Service) (output : Accepted) :
    (s.store output).settled = s.settled + {output} := by
  rw [Service.settled, Service.store, ← Multiset.coe_add, Multiset.coe_singleton, Service.settled]
  dsimp only
  abel

/-- The buffer is in the order of acceptance, and has only lost its oldest outputs. -/
structure InOrder (s : Service) : Prop where
  sorted : s.buffer.Pairwise (·.number < ·.number)
  oldest : ∀ o ∈ s.overflows, ∀ output ∈ o.buffered, o.evicted.number < output.number

theorem inOrder_new : InOrder .new := ⟨.nil, by simp [Service.new]⟩

theorem InOrder.bufferForRetry {s : Service} (h : InOrder s) (config : ShadowModeConfig)
    {output : Accepted} (hputs : ∀ ahead ∈ s.buffer, ahead.number < output.number) :
    InOrder (s.bufferForRetry config output) := by
  have hsorted : (s.buffer ++ [output]).Pairwise (·.number < ·.number) := by
    refine List.pairwise_append.mpr ⟨h.sorted, List.pairwise_singleton _ _, ?_⟩
    intro ahead hmem o ho
    rw [List.mem_singleton.mp ho]
    exact hputs ahead hmem
  refine ⟨hsorted.sublist (overflow_sublist _ _), fun o ho => ?_⟩
  rcases List.mem_append.mp ho with hold | hnew
  · exact h.oldest o hold
  · exact overflow_oldest hsorted o hnew

/-! ## What a section does -/

/-- A section of a call, a drain or the poll task: nothing, or one output leaves the hold for the
sink or for the buffer, or the drain takes all of the buffer. `putsHere` is the output that goes
into the buffer next, if any. -/
inductive Work (config : ShadowModeConfig) (s : Service) (putsHere : Option Accepted) :
    List Accepted → Service → List Accepted → Prop where
  | rest (held : List Accepted) : Work config s putsHere held s held
  | store (output : Accepted) (held : List Accepted) :
      Work config s putsHere (output :: held) (s.store output) held
  | buffer (output : Accepted) (held : List Accepted) (h : putsHere = some output) :
      Work config s putsHere (output :: held) (s.bufferForRetry config output) held
  | take : Work config s putsHere [] { s with buffer := [] } s.buffer

section Sections

variable {config : ShadowModeConfig} {s s' : Service} {putsHere : Option Accepted}
  {held held' : List Accepted}

theorem held_flush (flushed : ℕ) (pending : List Accepted) :
    (flush flushed pending).held = pending := by
  cases pending <;> rfl

theorem drain_work (config : ShadowModeConfig) (s : Service) (ok : Bool) (drain : Drain) :
    Work config s drain.puts drain.held (drain.advance config s ok).1
      (drain.advance config s ok).2.held := by
  cases drain with
  | locking =>
    rw [Drain.advance, held_flush]
    exact .take
  | flushing output pending flushed =>
    rw [Drain.advance]
    split_ifs
    · rw [held_flush]
      exact .store output pending
    · exact .rest _
  | rebuffering output pending flushed =>
    rw [Drain.advance, held_flush]
    exact .buffer output pending rfl
  | returned flushed => exact .rest _

theorem call_work (config : ShadowModeConfig) (s : Service) (ok : Bool) (call : Call) :
    Work config s call.puts call.held (call.advance config s ok).2.1
      (call.advance config s ok).2.2.held := by
  cases call with
  | idle => exact .rest _
  | persisting output =>
    rw [Call.advance]
    split_ifs
    · exact .store output []
    · exact .rest _
  | buffering output => exact .buffer output [] rfl
  | forwarding output => exact .rest _
  | draining drain =>
    have hheld : ∀ drain : Drain, (Call.ofDrain drain).held = drain.held := by
      intro drain
      cases drain <;> rfl
    rw [Call.advance, hheld]
    exact drain_work config s ok drain

theorem held_loopHead (s : Service) : (loopHead s).held = [] := by
  rw [loopHead]
  split_ifs <;> rfl

theorem poll_work (config : ShadowModeConfig) (s : Service) (ok : Bool) (poll : Poll) :
    Work config s poll.puts poll.held (poll.advance config s ok).1
      (poll.advance config s ok).2.held := by
  cases poll with
  | draining drain =>
    have hheld : ∀ (s : Service) (drain : Drain), (Poll.ofDrain s drain).held = drain.held := by
      intro s drain
      cases drain with
      | returned flushed => exact held_loopHead s
      | _ => rfl
    rw [Poll.advance, hheld]
    exact drain_work config s ok drain
  | created =>
    rw [Poll.advance, held_loopHead]
    exact .rest _
  | sleeping =>
    rw [Poll.advance]
    dsimp only
    split_ifs <;> exact .rest _
  | refreshing =>
    rw [Poll.advance]
    dsimp only
    split_ifs
    · rw [held_loopHead]
      exact .rest _
    · exact .rest _
  | _ => exact .rest _

/-- Work settles what it takes out of the hold. -/
theorem Work.settled (h : Work config s putsHere held s' held') :
    s'.settled + (held' : Multiset Accepted) = s.settled + (held : Multiset Accepted) := by
  cases h with
  | rest held => rfl
  | store output held =>
    rw [settled_store, add_assoc, Multiset.singleton_add, Multiset.cons_coe]
  | buffer output held =>
    rw [settled_bufferForRetry, add_assoc, Multiset.singleton_add, Multiset.cons_coe]
  | take =>
    rw [Service.settled, Service.settled, Multiset.coe_nil]
    dsimp only
    abel

/-- Work leaves the rest of the service as it is. -/
theorem Work.frame (h : Work config s putsHere held s' held') :
    s'.accepted = s.accepted ∧ s'.poll = s.poll := by
  cases h <;> exact ⟨rfl, rfl⟩

/-- Work leaves no more in the buffer than it has room for. -/
theorem Work.length_buffer_le (h : Work config s putsHere held s' held')
    (hs : s.buffer.length ≤ config.persistenceBuffer) :
    s'.buffer.length ≤ config.persistenceBuffer := by
  cases h with
  | rest held => exact hs
  | store output held => exact hs
  | buffer output held => exact length_overflow_le _ _
  | take => exact Nat.zero_le _

/-- Work that puts no output behind a newer one keeps the buffer in order. -/
theorem Work.inOrder (h : Work config s putsHere held s' held') (hs : InOrder s)
    (hputs : ∀ output ∈ putsHere, ∀ ahead ∈ s.buffer, ahead.number < output.number) :
    InOrder s' := by
  cases h with
  | rest held => exact hs
  | store output held => exact ⟨hs.sorted, hs.oldest⟩
  | buffer output held h => exact hs.bufferForRetry config (hputs output h)
  | take => exact ⟨.nil, hs.oldest⟩

end Sections

/-! ## Steps -/

/-- What a step can do. -/
inductive Effect (config : ShadowModeConfig) (cfg : Config) (label : Label) : Config → Prop where
  | rest : Effect config cfg label cfg
  | accept (tid : ℕ) (output : Accepted) (hidle : cfg.threads tid = .idle)
      (hnumber : output.number = cfg.shared.accepted.length) :
      Effect config cfg label (cfg.goto tid (.persisting output)
        { cfg.shared with accepted := cfg.shared.accepted ++ [output] })
  | caller (tid : ℕ) (next : Call) (s : Service)
      (hwork : Work config cfg.shared (label.puts cfg) (cfg.threads tid).held s next.held) :
      Effect config cfg label (cfg.goto tid next s)
  | flags (stopped : Bool) (poll : Poll) (hheld : poll.held = cfg.shared.poll.held) :
      Effect config cfg label
        { cfg with shared := { cfg.shared with stopped := stopped, poll := poll } }
  | poll (s : Service) (poll : Poll)
      (hwork : Work config cfg.shared (label.puts cfg) cfg.shared.poll.held s poll.held) :
      Effect config cfg label { cfg with shared := { s with poll := poll } }
  | cancel (hlabel : label = .stop) (hstopped : cfg.shared.stopped = false) :
      Effect config cfg label
        { cfg with shared := { cfg.shared with stopped := true, poll := .ended } }

theorem step_effect (config : ShadowModeConfig) (cfg : Config) (label : Label) :
    Effect config cfg label (step config cfg label).2 := by
  cases label with
  | persistOutput tid output =>
    rw [step]
    cases hth : cfg.threads tid with
    | idle =>
      dsimp only
      rw [persistOutput]
      split_ifs
      · exact .accept tid _ hth rfl
      · refine .caller tid .idle cfg.shared ?_
        rw [hth]
        exact .rest _
    | _ => exact .rest
  | drainPersistBuffer tid =>
    rw [step]
    cases hth : cfg.threads tid with
    | idle =>
      refine .caller tid (.draining .locking) cfg.shared ?_
      rw [hth]
      exact .rest _
    | _ => exact .rest
  | resume tid ok => exact .caller tid _ _ (call_work config cfg.shared ok (cfg.threads tid))
  | start =>
    rw [step, Service.start]
    split
    next hpoll => exact .flags false .starting (by rw [hpoll]; rfl)
    next => exact .rest
  | poll ok => exact .poll _ _ (poll_work config cfg.shared ok cfg.shared.poll)
  | stop =>
    rw [step, Service.stop]
    split_ifs with hstopped
    · exact .rest
    · split
      · exact .flags true cfg.shared.poll rfl
      · exact .flags true cfg.shared.poll rfl
      · exact .cancel rfl (Bool.eq_false_iff.mpr hstopped)

theorem inOrder_step (config : ShadowModeConfig) (cfg : Config) (label : Label)
    (h : InOrder cfg.shared) (hputs : PutsInOrder cfg label) :
    InOrder (step config cfg label).2.shared := by
  have heffect := step_effect config cfg label
  generalize (step config cfg label).2 = next at heffect
  cases heffect with
  | rest => exact h
  | accept tid output => exact ⟨h.sorted, h.oldest⟩
  | caller tid next s hwork => exact hwork.inOrder h hputs
  | flags stopped poll => exact ⟨h.sorted, h.oldest⟩
  | poll s poll hwork =>
    have hs := hwork.inOrder h hputs
    exact ⟨hs.sorted, hs.oldest⟩
  | cancel => exact ⟨h.sorted, h.oldest⟩

/-! ## Conservation -/

/-- Accepted outputs are numbered in turn, and each is settled, held by the poll task or held by a
caller, once. -/
structure Conserved (cfg : Config) : Prop where
  numbered : cfg.shared.accepted.map (·.number) = List.range cfg.shared.accepted.length
  balance : ∃ total, cfg.Total (fun call => (call.held : Multiset Accepted)) total ∧
    cfg.shared.settled + (cfg.shared.poll.held : Multiset Accepted) + total
      = (cfg.shared.accepted : Multiset Accepted)

theorem conserved_new : Conserved .new :=
  ⟨rfl, 0, Pool.total_zero fun _ => rfl, rfl⟩

/-- An output is settled when it is stored, buffered or evicted. -/
theorem mem_settled {s : Service} {output : Accepted} :
    output ∈ s.settled ↔
      output ∈ s.stored ∨ output ∈ s.buffer ∨ ∃ o ∈ s.overflows, o.evicted = output := by
  simp [Service.settled]

theorem Conserved.kept {cfg : Config} (h : Conserved cfg) : Kept cfg := by
  obtain ⟨-, total, htotal, hbalance⟩ := h
  intro output hmem
  rw [← Multiset.mem_coe, ← hbalance, Multiset.mem_add, Multiset.mem_add, mem_settled,
    htotal.mem_iff] at hmem
  simp only [Multiset.mem_coe] at hmem
  tauto

/-- A new output gets the next number and is held by its caller. -/
theorem Conserved.accept {cfg : Config} (h : Conserved cfg) {tid : ℕ} {output : Accepted}
    (hidle : cfg.threads tid = .idle) (hnumber : output.number = cfg.shared.accepted.length) :
    Conserved (cfg.goto tid (.persisting output)
      { cfg.shared with accepted := cfg.shared.accepted ++ [output] }) := by
  obtain ⟨hnumbered, total, htotal, hbalance⟩ := h
  obtain ⟨others, rfl, hgoto⟩ := htotal.goto tid
  refine ⟨?_, _, hgoto _ _, ?_⟩
  · dsimp only [Pool.shared_goto]
    rw [List.map_append, List.length_append, List.length_singleton, List.range_succ, hnumbered,
      List.map_singleton, hnumber]
  · dsimp only [Pool.shared_goto]
    rw [hidle] at hbalance
    rw [← Multiset.coe_add, ← hbalance]
    simp only [Call.held, Service.settled, Multiset.coe_nil, Multiset.coe_singleton]
    abel

/-- What a section of a caller takes out of its hold is settled. -/
theorem Conserved.caller {config : ShadowModeConfig} {cfg : Config} (h : Conserved cfg) {tid : ℕ}
    {putsHere : Option Accepted} {next : Call} {s : Service}
    (hwork : Work config cfg.shared putsHere (cfg.threads tid).held s next.held) :
    Conserved (cfg.goto tid next s) := by
  obtain ⟨hnumbered, total, htotal, hbalance⟩ := h
  obtain ⟨others, rfl, hgoto⟩ := htotal.goto tid
  obtain ⟨haccepted, hpoll⟩ := hwork.frame
  refine ⟨?_, _, hgoto _ _, ?_⟩
  · rw [Pool.shared_goto, haccepted]
    exact hnumbered
  · rw [Pool.shared_goto, haccepted, hpoll, ← hbalance]
    calc _ = s.settled + (next.held : Multiset Accepted)
          + ((cfg.shared.poll.held : Multiset Accepted) + others) := by abel
      _ = _ := by
          rw [hwork.settled]
          abel

/-- What a section of the poll task takes out of its hold is settled. -/
theorem Conserved.poll {config : ShadowModeConfig} {cfg : Config} (h : Conserved cfg)
    {putsHere : Option Accepted} {poll : Poll} {s : Service}
    (hwork : Work config cfg.shared putsHere cfg.shared.poll.held s poll.held) :
    Conserved { cfg with shared := { s with poll := poll } } := by
  obtain ⟨hnumbered, total, htotal, hbalance⟩ := h
  obtain ⟨haccepted, -⟩ := hwork.frame
  refine ⟨?_, total, htotal, ?_⟩
  · dsimp only
    rw [haccepted]
    exact hnumbered
  · dsimp only
    rw [haccepted, ← hbalance]
    exact congrArg (· + total) hwork.settled

/-- A step keeps every output, unless it is a stop that cancels a drain with outputs. -/
theorem conserved_step (config : ShadowModeConfig) (cfg : Config) (label : Label)
    (h : Conserved cfg) (hstop : StopsBetween cfg label) :
    Conserved (step config cfg label).2 := by
  have heffect := step_effect config cfg label
  generalize (step config cfg label).2 = next at heffect
  cases heffect with
  | rest => exact h
  | accept tid output hidle hnumber => exact h.accept hidle hnumber
  | caller tid next s hwork => exact h.caller hwork
  | poll s poll hwork => exact h.poll hwork
  | flags stopped poll hheld =>
    obtain ⟨hnumbered, total, htotal, hbalance⟩ := h
    rw [← hheld] at hbalance
    exact ⟨hnumbered, total, htotal, hbalance⟩
  | cancel hlabel hstopped =>
    subst hlabel
    obtain ⟨hnumbered, total, htotal, hbalance⟩ := h
    rw [hstop hstopped] at hbalance
    exact ⟨hnumbered, total, htotal, hbalance⟩

/-- Nothing else has an output that the poll task holds. -/
theorem Conserved.held_only {cfg : Config} (h : Conserved cfg) {output : Accepted}
    (hheld : output ∈ cfg.shared.poll.held) :
    output ∈ cfg.shared.accepted ∧ output ∉ cfg.shared.settled ∧
      ∀ tid, output ∉ (cfg.threads tid).held := by
  obtain ⟨hnumbered, total, htotal, hbalance⟩ := h
  have hnodup : cfg.shared.accepted.Nodup := by
    refine List.Nodup.of_map (·.number) ?_
    rw [hnumbered]
    exact List.nodup_range
  have hmem : output ∈ cfg.shared.accepted := by
    rw [← Multiset.mem_coe, ← hbalance]
    exact Multiset.mem_add.mpr (.inl (Multiset.mem_add.mpr (.inr hheld)))
  rw [← Multiset.coe_nodup, ← hbalance, Multiset.nodup_add, Multiset.nodup_add] at hnodup
  obtain ⟨⟨-, -, hsettled⟩, -, hothers⟩ := hnodup
  refine ⟨hmem, fun hin => Multiset.disjoint_left.mp hsettled hin hheld, fun tid hin => ?_⟩
  exact Multiset.disjoint_left.mp hothers (Multiset.mem_add.mpr (.inr hheld))
    (htotal.mem_iff.mpr ⟨tid, hin⟩)

/-- What a stop cancels with the poll task is lost. -/
theorem stopsBetween_of_kept (config : ShadowModeConfig) (cfg : Config) (label : Label)
    (h : Conserved cfg) (hkept : Kept (step config cfg label).2) : StopsBetween cfg label := by
  cases label with
  | stop =>
    intro hstopped
    refine List.eq_nil_iff_forall_not_mem.mpr fun output hheld => ?_
    obtain ⟨hmem, hsettled, hcalls⟩ := h.held_only hheld
    have hcancel : (step config cfg .stop).2
        = { cfg with shared := { cfg.shared with stopped := true, poll := .ended } } := by
      rw [step, Service.stop, if_neg (by simp [hstopped])]
      split
      next hpoll => rw [hpoll] at hheld; cases hheld
      next hpoll => rw [hpoll] at hheld; cases hheld
      next => rfl
    rw [hcancel] at hkept
    rcases hkept output hmem with hstored | (hpoll | ⟨tid, hcall⟩) | hrest
    · exact hsettled (mem_settled.mpr (.inl hstored))
    · cases hpoll
    · exact hcalls tid hcall
    · exact hsettled (mem_settled.mpr (.inr hrest))
  | _ => trivial

/-! ## Schedules -/

/-- The retry buffer never holds more than `persistence_buffer` outputs. -/
theorem length_buffer_le (config : ShadowModeConfig) (labels : List Label) :
    (run config labels).shared.buffer.length ≤ config.persistenceBuffer := by
  refine runState_invariant_all (step config)
    (fun cfg => cfg.shared.buffer.length ≤ config.persistenceBuffer) (fun cfg label h => ?_)
    (Nat.zero_le _) labels
  have heffect := step_effect config cfg label
  generalize (step config cfg label).2 = next at heffect
  cases heffect with
  | caller tid next s hwork => exact hwork.length_buffer_le h
  | poll s poll hwork => exact hwork.length_buffer_le h
  | _ => exact h

/-- Over every schedule, all outputs are kept exactly if no stop cancels a drain with outputs; and
as long as no output is put behind a newer one, overflows evict the oldest. -/
theorem kept_iff_and_evictsOldest (config : ShadowModeConfig) (labels : List Label) :
    (KeptThroughout config labels ↔
      ∀ pre label post, labels = pre ++ label :: post → StopsBetween (run config pre) label) ∧
    ((∀ pre label post, labels = pre ++ label :: post → PutsInOrder (run config pre) label) →
      EvictsOldestThroughout config labels) := by
  constructor
  · exact runState_observed_iff (step config) Conserved Kept StopsBetween (fun _ => Conserved.kept)
      (stopsBetween_of_kept config) (conserved_step config) conserved_new
  · intro hputs pre post hsplit
    have hinOrder := runState_invariant_split (step config) (fun cfg => InOrder cfg.shared)
      (inOrder_step config) inOrder_new hputs pre post hsplit
    exact hinOrder.oldest

/-- A retry buffer for one output. -/
def oneOutput : ShadowModeConfig := ⟨1, Nat.one_pos⟩

/-- A shadowed ranking. -/
def shadowedRank : ShadowedOutput := ⟨.aiRank, "ranking", [("shadow", .bool true)], 1, none⟩

/-- The sink does not take an output, which is buffered. -/
def outage (tid : ℕ) : List Label :=
  [.persistOutput tid shadowedRank, .resume tid false, .resume tid true]

/-- The poll task starts and takes the buffer. -/
def polledDrain : List Label := [.start, .poll true, .poll true, .poll true, .poll true, .poll true]

/-- Two outputs are buffered, the second of which evicts the first; the poll task flushes it, and the
service stops. -/
def flushedInTime : List Label :=
  outage 0 ++ outage 1 ++ polledDrain ++ [.poll true, .stop]

/-- The overflow of this schedule. -/
example : (run oneOutput flushedInTime).shared.overflows.map (·.evicted.number) = [0] := by
  decide +kernel

theorem kept_and_evictsOldest_flushedInTime :
    KeptThroughout oneOutput flushedInTime ∧ EvictsOldestThroughout oneOutput flushedInTime :=
  ⟨(kept_iff_and_evictsOldest oneOutput flushedInTime).1.mpr
      (forall_split_of_all (by decide +kernel)),
    (kept_iff_and_evictsOldest oneOutput flushedInTime).2
      (forall_split_of_all (by decide +kernel))⟩

/-- The service stops while the poll task waits for the sink. -/
def cancelledDrain : List Label := outage 0 ++ polledDrain ++ [.stop]

/-- An output fails again in a drain, after a newer one has come into the buffer. -/
def overtakenDrain : List Label :=
  outage 0 ++ [.drainPersistBuffer 2, .resume 2 true] ++ outage 1 ++
    [.resume 2 false, .resume 2 true]

/-- The first schedule loses an output, in the second an overflow evicts the newer of two. -/
theorem not_kept_cancelled :
    ¬ KeptThroughout oneOutput cancelledDrain ∧
      ¬ EvictsOldestThroughout oneOutput overtakenDrain := by
  constructor
  · intro h
    have hkept := h cancelledDrain [] (List.append_nil _).symm
    rcases hkept ⟨0, shadowedRank⟩ (List.mem_singleton_self _)
      with hstored | (hpoll | ⟨tid, hcall⟩) | hbuffer | ⟨o, ho, -⟩
    · cases hstored
    · cases hpoll
    · match tid with
      | 0 => cases hcall
      | _ + 1 => cases hcall
    · cases hbuffer
    · cases ho
  · intro h
    have hevicted := h overtakenDrain [] (List.append_nil _).symm
      ⟨⟨1, shadowedRank⟩, [⟨0, shadowedRank⟩]⟩ (List.mem_singleton_self _) ⟨0, shadowedRank⟩
      (List.mem_singleton_self _)
    exact absurd hevicted (by decide)

end ShadowModeService

end Hedge.Ai
