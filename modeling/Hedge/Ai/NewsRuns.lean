import Hedge.Ai.News
import Mathlib.Algebra.Order.Group.Multiset
import Mathlib.Tactic.Abel

/-!
# Headlines through the news engine

What the engine does with headlines that arrive while others are under way: which of them count as
duplicates, what the background tasks can and cannot change, and what the sinks are given in the end.
-/

namespace Hedge.Ai.News

open Hedge.Common

variable (config : NewsConfig)

/-! ## Duplicates -/

/-- The content hash a step observes, if it starts a call. -/
def startedHash (c : Loop) : Step → List String
  | .ingest tid h => match c.threads tid with
    | .idle => [config.contentHash h.text]
    | _ => []
  | _ => []

/-- The content hashes observed so far. -/
def startedHashes (steps : List Step) : List String :=
  runCollect (loopStep config) (startedHash config) .init steps

theorem keys_observe (e : Engine) (h : Headline) :
    (e.observe config h).2.keys =
      (useKey config.dedupWindow e.keys (config.contentHash h.text)).2 := by
  rw [Engine.observe, useKey]
  split_ifs <;> rfl

theorem point_observe (e : Engine) (h : Headline) :
    (e.observe config h).1.point =
      if config.contentHash h.text ∈ e.keys then .idle else .scoring h := by
  rw [Engine.observe, useKey]
  split_ifs <;> rfl

theorem keys_score (e : Engine) (h : Headline) (scores : Option Scores) (freshId : String)
    (nowNs : ℕ) : (e.score config h scores freshId nowNs).2.keys = e.keys := by
  cases scores with
  | none => rfl
  | some scores =>
    simp only [Engine.score]
    cases (config.fastPath h scores).mapping.primary with
    | none => rfl
    | some primary =>
      cases hbuild : config.buildImpact (config.fastPath h scores) primary freshId nowNs <;>
        simp only [hbuild]

/-- The tasks of a headline that is handled. -/
def NewsConfig.tasksOf (config : NewsConfig) (fast : FastPathResult) : List Task :=
  (if config.embedder then [.embedding fast] else []) ++
    (if config.slowPathWillDispatch then [.reasoning fast] else [])

theorem schedule_eq (e : Engine) (fast : FastPathResult) (impact : NewsImpact) :
    e.schedule config fast impact =
      (.done (.returned
        ⟨false, some impact, some fast, config.slowPathWillDispatch, config.embedder⟩),
      { e with
        pending := e.pending ++ config.tasksOf fast
        ingestionCount := e.ingestionCount + 1 }) := by
  simp only [Engine.schedule, Engine.maybeScheduleEmbedding, Engine.maybeScheduleSlowPath,
    NewsConfig.tasksOf]
  cases config.embedder <;> cases config.slowPathWillDispatch <;> simp

theorem keys_finish (e : Engine) (fast : FastPathResult) (impact : NewsImpact)
    (reply : PublishReply) : (e.finish config fast impact reply).2.keys = e.keys := by
  cases reply <;> simp only [Engine.finish, schedule_eq]

theorem keys_runTask (e : Engine) (ok : Bool) (task : Task) :
    (e.runTask ok task).2.keys = e.keys := by
  cases task <;> rfl

/-- The filter holds the keys used last, whatever else the loop does between the observations. -/
theorem keys_after (steps : List Step) :
    (Loop.after config steps).shared.keys =
      lastN config.dedupWindow (startedHashes config steps).dedup := by
  induction steps using List.reverseRecOn with
  | nil => simp [Loop.after, startedHashes, Loop.init, Engine.init]
  | append_singleton steps a ih =>
    rw [startedHashes, runCollect_concat, Loop.after, runState_append, runState_cons, runState_nil]
    rw [Loop.after] at ih
    generalize hlog : runCollect (loopStep config) (startedHash config) .init steps = log
    rw [startedHashes, hlog] at ih
    generalize runState (loopStep config) .init steps = c at ih ⊢
    have hsame : startedHash config c a = [] → (loopStep config c a).2.shared.keys =
        c.shared.keys → (loopStep config c a).2.shared.keys =
        lastN config.dedupWindow (log ++ startedHash config c a).dedup := by
      intro hnone hkeys
      rw [hnone, List.append_nil, hkeys, ih]
    cases a with
    | ingest tid h =>
      cases hpoint : c.threads tid with
      | idle =>
        simp only [loopStep, Loop.turn, startedHash, hpoint, Pool.shared_goto, keys_observe]
        rw [ih, useKey_lastN]
      | scoring | publishing => exact hsame (by simp [startedHash, hpoint]) (by simp [loopStep, hpoint])
    | scored tid scores freshId nowNs =>
      refine hsame rfl ?_
      cases hpoint : c.threads tid <;> simp [loopStep, Loop.turn, hpoint, keys_score]
    | published tid reply =>
      refine hsame rfl ?_
      cases hpoint : c.threads tid <;> simp [loopStep, Loop.turn, hpoint, keys_finish]
    | task idx ok =>
      refine hsame rfl ?_
      cases htask : c.shared.pending[idx]? <;> simp [loopStep, htask, keys_runTask]

/-- A headline is dropped exactly when its text was observed before and fewer other texts than the
window has places were observed since. -/
theorem deduped_iff (steps : List Step) (tid : ℕ) (h : Headline)
    (hidle : (Loop.after config steps).threads tid = .idle) :
    (Loop.after config (steps ++ [.ingest tid h])).threads tid = .idle ↔
      ∃ before after, startedHashes config steps =
          before ++ config.contentHash h.text :: after ∧
        config.contentHash h.text ∉ after ∧ after.dedup.length < config.dedupWindow := by
  rw [← mem_lastN_dedup_iff, ← keys_after]
  rw [Loop.after] at hidle ⊢
  rw [Loop.after, runState_append, runState_cons, runState_nil]
  simp only [loopStep, Loop.turn, hidle, Pool.threads_goto_self, point_observe]
  split_ifs with hmem
  · exact iff_of_true rfl hmem
  · exact iff_of_false (by simp) hmem

/-- A headline with some text. -/
def headlineOf (text : String) : Headline := ⟨"id-" ++ text, text, ["NIFTY"], 1, none⟩

/-- A window of two texts, compared as they are, and both background tasks. -/
def windowOfTwo : NewsConfig := ⟨2, ["NIFTY"], true, true, true, id, by decide⟩

/-- The text of a headline whose score failed is taken as seen: sent again, it is dropped. -/
theorem deduped_after_failure :
    (Loop.after windowOfTwo
      ([.ingest 0 (headlineOf "a"), .scored 0 none "" 0] ++ [.ingest 0 (headlineOf "a")])).threads 0 =
        .idle :=
  (deduped_iff windowOfTwo _ 0 (headlineOf "a") rfl).mpr ⟨[], [], rfl, List.not_mem_nil, by decide⟩

/-! ## The background tasks

The sections of `ingest` add to the pending tasks but read neither these nor what the sinks were
given, and the tasks change nothing else. -/

/-- Two engines that differ in their tasks and sinks only. -/
structure SameFront (e e' : Engine) : Prop where
  keys : e.keys = e'.keys
  ingestionCount : e.ingestionCount = e'.ingestionCount
  dedupDrops : e.dedupDrops = e'.dedupDrops
  unmappedCount : e.unmappedCount = e'.unmappedCount
  published : e.published = e'.published

theorem SameFront.symm {e e' : Engine} (h : SameFront e e') : SameFront e' e :=
  ⟨h.keys.symm, h.ingestionCount.symm, h.dedupDrops.symm, h.unmappedCount.symm, h.published.symm⟩

theorem SameFront.trans {e e' e'' : Engine} (h : SameFront e e') (h' : SameFront e' e'') :
    SameFront e e'' :=
  ⟨h.keys.trans h'.keys, h.ingestionCount.trans h'.ingestionCount,
    h.dedupDrops.trans h'.dedupDrops, h.unmappedCount.trans h'.unmappedCount,
    h.published.trans h'.published⟩

theorem SameFront.observe {e e' : Engine} (h : SameFront e e') (headline : Headline) :
    (e.observe config headline).1 = (e'.observe config headline).1 ∧
      SameFront (e.observe config headline).2 (e'.observe config headline).2 := by
  rw [Engine.observe, Engine.observe, useKey, useKey, h.keys]
  split_ifs
  · exact ⟨rfl, rfl, congrArg (· + 1) h.ingestionCount, congrArg (· + 1) h.dedupDrops,
      h.unmappedCount, h.published⟩
  · exact ⟨rfl, rfl, h.ingestionCount, h.dedupDrops, h.unmappedCount, h.published⟩

theorem SameFront.score {e e' : Engine} (h : SameFront e e') (headline : Headline)
    (scores : Option Scores) (freshId : String) (nowNs : ℕ) :
    (e.score config headline scores freshId nowNs).1 =
        (e'.score config headline scores freshId nowNs).1 ∧
      SameFront (e.score config headline scores freshId nowNs).2
        (e'.score config headline scores freshId nowNs).2 := by
  cases scores with
  | none => exact ⟨rfl, h⟩
  | some scores =>
    simp only [Engine.score]
    cases (config.fastPath headline scores).mapping.primary with
    | none => exact ⟨rfl, h.keys, congrArg (· + 1) h.ingestionCount, h.dedupDrops,
        congrArg (· + 1) h.unmappedCount, h.published⟩
    | some primary =>
      cases hbuild : config.buildImpact (config.fastPath headline scores) primary freshId nowNs <;>
      · simp only [hbuild]
        exact ⟨trivial, h⟩

theorem SameFront.finish {e e' : Engine} (h : SameFront e e') (fast : FastPathResult)
    (impact : NewsImpact) (reply : PublishReply) :
    (e.finish config fast impact reply).1 = (e'.finish config fast impact reply).1 ∧
      SameFront (e.finish config fast impact reply).2 (e'.finish config fast impact reply).2 := by
  have hcount := congrArg (· + 1) h.ingestionCount
  cases reply <;> simp only [Engine.finish, schedule_eq]
  case ok =>
    exact ⟨trivial, h.keys, hcount, h.dedupDrops, h.unmappedCount,
      congrArg (· ++ [impact]) h.published⟩
  case newsPublishError =>
    exact ⟨trivial, h.keys, hcount, h.dedupDrops, h.unmappedCount, h.published⟩
  case otherError => exact ⟨trivial, h⟩

theorem sameFront_runTask (e : Engine) (ok : Bool) (task : Task) (pending : List Task) :
    SameFront { (e.runTask ok task).2 with pending := pending } e := by
  cases task <;> exact ⟨rfl, rfl, rfl, rfl, rfl⟩

/-- Two loops with the same calls, over engines that differ in their tasks and sinks only. -/
structure SameCalls (c c' : Loop) : Prop where
  shared : SameFront c.shared c'.shared
  threads : c.threads = c'.threads

theorem SameCalls.turn {c c' : Loop} (h : SameCalls c c') (tid : ℕ) {outcome outcome' : Turn × Engine}
    (hturn : outcome.1 = outcome'.1 ∧ SameFront outcome.2 outcome'.2) :
    (c.turn tid outcome).1 = (c'.turn tid outcome').1 ∧
      SameCalls (c.turn tid outcome).2 (c'.turn tid outcome').2 := by
  simp only [Loop.turn, Pool.goto, hturn.1, h.threads]
  exact ⟨trivial, hturn.2, rfl⟩

/-- A step of a background task. -/
def Step.isTask : Step → Bool
  | .task _ _ => true
  | _ => false

theorem SameCalls.task {c c' : Loop} (h : SameCalls c c') {a : Step} (ha : a.isTask = true) :
    (loopStep config c a).1 = none ∧ SameCalls (loopStep config c a).2 c' := by
  cases a with
  | ingest | scored | published => cases ha
  | task idx ok =>
    cases htask : c.shared.pending[idx]? with
    | none =>
      simp only [loopStep, htask]
      exact ⟨trivial, h⟩
    | some task =>
      have hfront := sameFront_runTask c.shared ok task
      simp only [loopStep, htask]
      exact ⟨trivial, (hfront _).trans h.shared, h.threads⟩

theorem SameCalls.step {c c' : Loop} (h : SameCalls c c') {a : Step} (ha : a.isTask = false) :
    (loopStep config c a).1 = (loopStep config c' a).1 ∧
      SameCalls (loopStep config c a).2 (loopStep config c' a).2 := by
  cases a with
  | task idx ok => cases ha
  | ingest tid headline =>
    cases hpoint : c'.threads tid <;> simp only [loopStep, h.threads, hpoint]
    case idle => exact h.turn tid (h.shared.observe config headline)
    all_goals exact ⟨trivial, h⟩
  | scored tid scores freshId nowNs =>
    cases hpoint : c'.threads tid <;> simp only [loopStep, h.threads, hpoint]
    case scoring headline => exact h.turn tid (h.shared.score config headline scores freshId nowNs)
    all_goals exact ⟨trivial, h⟩
  | published tid reply =>
    cases hpoint : c'.threads tid <;> simp only [loopStep, h.threads, hpoint]
    case publishing fast impact => exact h.turn tid (h.shared.finish config fast impact reply)
    all_goals exact ⟨trivial, h⟩

/-- A run and the same run without its background tasks. -/
theorem SameCalls.run {c c' : Loop} (h : SameCalls c c') (steps : List Step) :
    (runOutputs (loopStep config) c steps).filterMap id =
        (runOutputs (loopStep config) c' (steps.filter fun a => !a.isTask)).filterMap id ∧
      SameCalls (runState (loopStep config) c steps)
        (runState (loopStep config) c' (steps.filter fun a => !a.isTask)) := by
  induction steps generalizing c c' with
  | nil => exact ⟨rfl, h⟩
  | cons a steps ih =>
    cases ha : a.isTask with
    | true =>
      obtain ⟨hnone, hnext⟩ := h.task config ha
      rw [List.filter_cons_of_neg (by simp [ha]), runOutputs_cons, runState_cons, hnone,
        List.filterMap_cons_none rfl]
      exact ih hnext
    | false =>
      obtain ⟨hout, hnext⟩ := h.step config ha
      obtain ⟨houts, hend⟩ := ih hnext
      rw [List.filter_cons_of_pos (by simp [ha])]
      refine ⟨?_, hend⟩
      rw [runOutputs_cons, runOutputs_cons, hout, List.filterMap_cons, List.filterMap_cons, houts]

/-- The background tasks delay and change nothing: of two runs with the same steps of `ingest`, however
the tasks run and fail in between, the calls end alike and in the same order with the same results, and
the same impacts are published and the same counts kept. -/
theorem ingest_independent_of_tasks {steps steps' : List Step}
    (h : steps.filter (fun a => !a.isTask) = steps'.filter (fun a => !a.isTask)) :
    ended config steps = ended config steps' ∧
      (Loop.after config steps).threads = (Loop.after config steps').threads ∧
      SameFront (Loop.after config steps).shared (Loop.after config steps').shared := by
  have hinit : SameCalls Loop.init Loop.init := ⟨⟨rfl, rfl, rfl, rfl, rfl⟩, rfl⟩
  obtain ⟨hends, hcalls⟩ := hinit.run config steps
  obtain ⟨hends', hcalls'⟩ := hinit.run config steps'
  rw [h] at hends hcalls
  exact ⟨hends.trans hends'.symm, hcalls.threads.trans hcalls'.threads.symm,
    hcalls.shared.trans hcalls'.shared.symm⟩

/-- A second headline is scored while the tasks of the first one run to their sinks. -/
def tasksInBetween : List Step :=
  [.ingest 0 (headlineOf "a"), .scored 0 (some ⟨1 / 2, 1 / 2, []⟩) "x" 0, .published 0 .ok,
    .ingest 1 (headlineOf "b"), .task 0 true, .task 0 true, .scored 1 (some ⟨0, 0, []⟩) "y" 0,
    .task 0 true, .task 0 true, .published 1 .newsPublishError, .ingest 2 (headlineOf "a")]

/-- The same headlines, with a failed embedding and no other task run. -/
def tasksFailing : List Step :=
  [.ingest 0 (headlineOf "a"), .scored 0 (some ⟨1 / 2, 1 / 2, []⟩) "x" 0, .published 0 .ok,
    .task 0 false, .ingest 1 (headlineOf "b"), .scored 1 (some ⟨0, 0, []⟩) "y" 0,
    .published 1 .newsPublishError, .ingest 2 (headlineOf "a")]

theorem ingest_alike :
    ended windowOfTwo tasksInBetween = ended windowOfTwo tasksFailing ∧
      (Loop.after windowOfTwo tasksInBetween).threads =
        (Loop.after windowOfTwo tasksFailing).threads ∧
      SameFront (Loop.after windowOfTwo tasksInBetween).shared
        (Loop.after windowOfTwo tasksFailing).shared :=
  ingest_independent_of_tasks windowOfTwo rfl

/-! ## What the engine counts -/

/-- Whether a call is under way. -/
def CallPoint.underWay : CallPoint → ℕ
  | .idle => 0
  | .scoring _ | .publishing _ _ => 1

/-- A headline that no symbol is found for, when its scores arrive. -/
def unmappedAt (c : Loop) : Step → List FastPathResult
  | .scored tid (some scores) _ _ => match c.threads tid with
    | .scoring h =>
      if (config.fastPath h scores).mapping.symbols = [] then [config.fastPath h scores] else []
    | _ => []
  | _ => []

/-- A headline whose impact was handed to the publisher, when the call comes to its end. -/
def handledAt (c : Loop) : Step → List FastPathResult
  | .published tid reply => match c.threads tid with
    | .publishing fast _ => if reply = .otherError then [] else [fast]
    | _ => []
  | _ => []

/-- The headlines that were handed to the publisher. -/
def handled (steps : List Step) : List FastPathResult :=
  runCollect (loopStep config) handledAt .init steps

/-! ## What the sinks are given -/

/-- The two kinds of background work. -/
inductive Work where
  | embed
  | reason
deriving DecidableEq

/-- The headline a task works on for a kind of work. -/
def Task.workOn : Work → Task → Option FastPathResult
  | .embed, .embedding fast | .embed, .upserting fast => some fast
  | .reason, .reasoning fast | .reason, .submitting fast => some fast
  | _, _ => none

/-- Whether the engine does a kind of work. -/
def NewsConfig.does (config : NewsConfig) : Work → Bool
  | .embed => config.embedder
  | .reason => config.slowPathWillDispatch

/-- The headline that a caller was told to be scheduled for a kind of work. -/
def NewsIngestionResult.scheduledFor (r : NewsIngestionResult) : Work → Option FastPathResult
  | .embed => if r.embeddingScheduled then r.fast else none
  | .reason => if r.slowPathScheduled then r.fast else none

/-- What the sink of a kind of work has been given. -/
def Engine.given (e : Engine) : Work → List FastPathResult
  | .embed => e.upserted
  | .reason => e.submitted

/-- The headlines with a task of a kind under way. -/
def Engine.underWay (e : Engine) (work : Work) : List FastPathResult :=
  e.pending.filterMap (Task.workOn work)

/-- The headline that a section of a task gives up before the sink. -/
def Task.givesUp (work : Work) (ok : Bool) : Task → List FastPathResult
  | .embedding fast => if work = .embed ∧ ok = false then [fast] else []
  | .reasoning fast => if work = .reason ∧ ok = false then [fast] else []
  | _ => []

/-- A headline whose task fails before the sink, at some step. -/
def failedAt (work : Work) (c : Loop) : Step → List FastPathResult
  | .task idx ok => (c.shared.pending[idx]?).elim [] (Task.givesUp work ok)
  | _ => []

/-- The headlines whose task of a kind has failed. -/
def failed (work : Work) (steps : List Step) : List FastPathResult :=
  runCollect (loopStep config) (failedAt work) .init steps

/-- The headlines that the callers were told to be scheduled for a kind of work. -/
def scheduled (work : Work) (steps : List Step) : List FastPathResult :=
  (returned config steps).filterMap (·.scheduledFor work)

/-- The duplicate that a step finds, if it starts a call. -/
def duplicateAt (c : Loop) (a : Step) : List String :=
  (startedHash config c a).filter (· ∈ c.shared.keys)

/-- What one step counts, tells a caller and moves. -/
structure StepSpec (c : Loop) (a : Step) : Prop where
  dedupDrops : (loopStep config c a).2.shared.dedupDrops =
    c.shared.dedupDrops + (duplicateAt config c a).length
  unmappedCount : (loopStep config c a).2.shared.unmappedCount =
    c.shared.unmappedCount + (unmappedAt config c a).length
  ingestionCount : (loopStep config c a).2.shared.ingestionCount = c.shared.ingestionCount +
    ((duplicateAt config c a).length + (unmappedAt config c a).length + (handledAt c a).length)
  results : (((loopStep config c a).1.map Prod.snd).bind CallEnd.result?).toList.length =
    (duplicateAt config c a).length + (unmappedAt config c a).length + (handledAt c a).length
  ended : ∀ total, c.Total CallPoint.underWay total →
    ∃ total', (loopStep config c a).2.Total CallPoint.underWay total' ∧
      (loopStep config c a).1.toList.length + total' = (startedHash config c a).length + total
  scheduled : ∀ work, (((loopStep config c a).1.map Prod.snd).bind CallEnd.result?).toList.filterMap
    (·.scheduledFor work) = if config.does work then handledAt c a else []
  tasks : ∀ work, (↑((loopStep config c a).2.shared.given work) : Multiset FastPathResult) +
      ↑((loopStep config c a).2.shared.underWay work) + ↑(failedAt work c a) =
    ↑(c.shared.given work) + ↑(c.shared.underWay work) +
      if config.does work then ↑(handledAt c a) else 0

variable {config}

theorem StepSpec.of_none {c : Loop} {a : Step} (hstep : loopStep config c a = (none, c))
    (hstarted : startedHash config c a = []) (hunmapped : unmappedAt config c a = [])
    (hhandled : handledAt c a = []) (hfailed : ∀ work, failedAt work c a = []) :
    StepSpec config c a := by
  constructor <;>
    simp only [hstep, duplicateAt, hstarted, hunmapped, hhandled, hfailed, List.filter_nil,
      List.length_nil, Nat.zero_add, Option.map_none, Option.bind_none,
      Option.toList_none, List.filterMap_nil, ite_self, Multiset.coe_nil, add_zero, implies_true]
  exact fun total htotal => ⟨total, htotal, rfl⟩

variable (config)

theorem after_concat (steps : List Step) (a : Step) :
    Loop.after config (steps ++ [a]) = (loopStep config (Loop.after config steps) a).2 := by
  rw [Loop.after, runState_append]
  rfl

theorem ended_concat (steps : List Step) (a : Step) :
    ended config (steps ++ [a]) =
      ended config steps ++ (loopStep config (Loop.after config steps) a).1.toList := by
  rw [ended, runOutputs_concat, List.filterMap_append]
  cases h : (loopStep config (Loop.after config steps) a).1 <;> rw [Loop.after] at h <;>
    rw [h] <;> rfl

theorem returned_concat (steps : List Step) (a : Step) :
    returned config (steps ++ [a]) = returned config steps ++
      (((loopStep config (Loop.after config steps) a).1.map Prod.snd).bind
        CallEnd.result?).toList := by
  rw [returned, ended_concat, List.filterMap_append]
  cases (loopStep config (Loop.after config steps) a).1 with
  | none => rfl
  | some call => cases h : call.2.result? <;> simp [returned, h]

end Hedge.Ai.News
