import Hedge.Common.Pool
import Hedge.Risk.State

/-!
# Concurrent calls on the kill switch

Reference: `hedge-risk/src/kill_switch.rs`.

The flag is an atomic and the reason is behind a lock, so `activate` and `reset` change them in two
sections each. A reset that clears the flag while the reason of an activation is there, or still to
come, leaves that reason behind. `flagAndReason_of_clean` says that nothing else goes wrong.
-/

namespace Hedge.Risk

open Hedge.Common

namespace KillSwitchState

/-! ## Sections -/

/-- A call on the switch. -/
inductive Op where
  | activate (reason : KillReason)
  | reset

/-- Where a call is, and what it remembers. -/
inductive Point where
  | idle
  | exchanging (reason : KillReason)
  | recording (reason : KillReason)
  | dropping
  | clearing

def Op.start : Op → Point
  | .activate reason => .exchanging reason
  | .reset => .dropping

/-- The switch, and the reason given by the activation that engaged it. -/
structure Shared where
  switch : KillSwitchState
  engagedBy : Option KillReason

/-- What can be seen of a section: the flag is engaged, a call to `activate` returns, or the flag is
cleared. -/
inductive Mark where
  | engaged
  | returned (transitioned : Bool)
  | cleared
deriving DecidableEq

/-- The switch with the calls in flight. -/
abbrev Config := Pool Shared Point

/-- A fresh switch with no call in flight. -/
def Config.new : Config := ⟨⟨.new, none⟩, fun _ => .idle⟩

/-- Which call starts, or which thread moves. -/
inductive Label where
  | start (tid : ℕ) (op : Op)
  | advance (tid : ℕ)

/-- One section of one call. -/
def advance (cfg : Config) (tid : ℕ) : Option Mark × Config :=
  let switch := cfg.shared.switch
  match cfg.threads tid with
  | .idle => (none, cfg)
  | .exchanging reason =>
    if switch.active then (some (.returned false), cfg.goto tid .idle cfg.shared)
    else (some .engaged, cfg.goto tid (.recording reason) ⟨{ switch with active := true }, reason⟩)
  | .recording reason =>
    (some (.returned true),
      cfg.goto tid .idle { cfg.shared with switch := { switch with reason := some reason } })
  | .dropping =>
    (none, cfg.goto tid .clearing { cfg.shared with switch := { switch with reason := none } })
  | .clearing => (some .cleared, cfg.goto tid .idle ⟨{ switch with active := false }, none⟩)

/-- One step of a schedule; a thread starts a call when it has none. -/
def threadStep (cfg : Config) : Label → Option Mark × Config
  | .start tid op => match cfg.threads tid with
    | .idle => (none, cfg.goto tid op.start cfg.shared)
    | _ => (none, cfg)
  | .advance tid => advance cfg tid

/-- A call that runs alone is `activate`. -/
theorem solo_activate (switch : KillSwitchState) (engagedBy : Option KillReason)
    (reason : KillReason) :
    (runState threadStep ⟨⟨switch, engagedBy⟩, fun _ => .idle⟩
      [.start 0 (.activate reason), .advance 0, .advance 0]).shared.switch
        = (switch.activate reason).2 := by
  obtain ⟨active, old⟩ := switch
  cases active <;> rfl

/-- A call that runs alone is `reset`. -/
theorem solo_reset (switch : KillSwitchState) (engagedBy : Option KillReason) :
    (runState threadStep ⟨⟨switch, engagedBy⟩, fun _ => .idle⟩
      [.start 0 .reset, .advance 0, .advance 0]).shared.switch = switch.reset := rfl

/-! ## What has to hold -/

/-- With no call in flight the reason is there exactly when the switch is active, and is the one of
the activation that engaged it. -/
structure Agree (cfg : Config) : Prop where
  isSome : cfg.shared.switch.reason.isSome = cfg.shared.switch.active
  eq : cfg.shared.switch.active = true → cfg.shared.switch.reason = cfg.shared.engagedBy

/-- Flag and reason agree over a schedule. -/
structure FlagAndReason (labels : List Label) : Prop where
  once : ∀ pre mid post, labels = pre ++ mid ++ post →
    some .cleared ∉ runOutputs threadStep (runState threadStep .new pre) mid →
      (runOutputs threadStep (runState threadStep .new pre) mid).count (some (.returned true)) ≤ 1
  agree : ∀ pre post, labels = pre ++ post →
    (∀ tid, (runState threadStep .new pre).threads tid = .idle) →
      Agree (runState threadStep .new pre)

/-- No call has won the exchange without having written its reason. -/
def NoneRecording (cfg : Config) : Prop := ∀ tid reason, cfg.threads tid ≠ .recording reason

/-- A step clears the flag only when there is no reason and none is still to be written. -/
def ClearsClean (cfg : Config) : Label → Prop
  | .advance tid => cfg.threads tid = .clearing →
    cfg.shared.switch.reason = none ∧ NoneRecording cfg
  | .start _ _ => True

/-! ## Steps -/

/-- What a step can do. -/
inductive Effect (cfg : Config) (label : Label) : Option Mark × Config → Prop where
  | rest : Effect cfg label (none, cfg)
  | move (tid : ℕ) (next : Point) (mark : Option Mark)
      (hmark : mark = none ∨ mark = some (.returned false))
      (hfrom : ∀ reason, cfg.threads tid ≠ .recording reason) (hclear : cfg.threads tid ≠ .clearing)
      (hto : ∀ reason, next ≠ .recording reason) :
      Effect cfg label (mark, cfg.goto tid next cfg.shared)
  | win (tid : ℕ) (reason : KillReason) (hactive : cfg.shared.switch.active = false) :
      Effect cfg label (some .engaged, cfg.goto tid (.recording reason)
        ⟨{ cfg.shared.switch with active := true }, some reason⟩)
  | record (tid : ℕ) (reason : KillReason) (hself : cfg.threads tid = .recording reason) :
      Effect cfg label (some (.returned true), cfg.goto tid .idle
        { cfg.shared with switch := { cfg.shared.switch with reason := some reason } })
  | drop (tid : ℕ) (hself : cfg.threads tid = .dropping) :
      Effect cfg label (none, cfg.goto tid .clearing
        { cfg.shared with switch := { cfg.shared.switch with reason := none } })
  | clear (tid : ℕ) (hlabel : label = .advance tid) (hself : cfg.threads tid = .clearing) :
      Effect cfg label (some .cleared, cfg.goto tid .idle
        ⟨{ cfg.shared.switch with active := false }, none⟩)

theorem threadStep_effect (cfg : Config) (label : Label) :
    Effect cfg label (threadStep cfg label) := by
  cases label with
  | start tid op =>
    rw [threadStep]
    cases hth : cfg.threads tid with
    | idle =>
      refine .move tid op.start none (.inl rfl) (by simp [hth]) (by simp [hth]) ?_
      cases op <;> exact nofun
    | _ => exact .rest
  | advance tid =>
    rw [threadStep, advance]
    cases hth : cfg.threads tid with
    | idle => exact .rest
    | exchanging reason =>
      dsimp only
      split_ifs with hactive
      · exact .move tid .idle _ (.inr rfl) (by simp [hth]) (by simp [hth]) nofun
      · exact .win tid reason (Bool.eq_false_iff.mpr hactive)
    | recording reason => exact .record tid reason hth
    | dropping => exact .drop tid hth
    | clearing => exact .clear tid rfl hth

/-- A step that clears nothing is clean. -/
theorem clearsClean_of_ne {cfg : Config} {label : Label}
    (h : (threadStep cfg label).1 ≠ some .cleared) : ClearsClean cfg label := by
  cases label with
  | start tid op => trivial
  | advance tid =>
    intro hth
    rw [threadStep, advance, hth] at h
    exact absurd rfl h

theorem NoneRecording.goto {cfg : Config} (h : NoneRecording cfg) (tid : ℕ) {next : Point}
    (hto : ∀ reason, next ≠ .recording reason) (shared : Shared) :
    NoneRecording (cfg.goto tid next shared) := by
  have hthreads := @Pool.forall_threads_goto _ _ (fun _ point => ∀ reason, point ≠ .recording reason)
    cfg tid next shared (fun tid' _ => h tid') hto
  exact hthreads

/-- When the only call with its reason still to write moves on, none is left. -/
theorem noneRecording_goto_of_only {cfg : Config} {tid : ℕ}
    (honly : ∀ tid' reason, cfg.threads tid' = .recording reason → tid' = tid) {next : Point}
    (hto : ∀ reason, next ≠ .recording reason) (shared : Shared) :
    NoneRecording (cfg.goto tid next shared) := by
  intro tid' reason hth
  rcases Pool.threads_goto_eq hth with ⟨-, hnext⟩ | ⟨hne, hbefore⟩
  · exact hto reason hnext
  · exact hne (honly tid' reason hbefore)

/-! ## The phases of the switch -/

/-- The flag is cleared, or engaged by a call that has not written its reason, or engaged for good;
in the last case the reason may be missing while a reset is on its way. -/
inductive Phase (cfg : Config) : Prop where
  | inactive (hactive : cfg.shared.switch.active = false) (hreason : cfg.shared.switch.reason = none)
      (hnone : NoneRecording cfg)
  | recording (tid : ℕ) (reason : KillReason) (hactive : cfg.shared.switch.active = true)
      (hreason : cfg.shared.switch.reason = none) (hby : cfg.shared.engagedBy = some reason)
      (hself : cfg.threads tid = .recording reason)
      (honly : ∀ tid' reason', cfg.threads tid' = .recording reason' → tid' = tid)
  | engaged (hactive : cfg.shared.switch.active = true) (hnone : NoneRecording cfg)
      (hreason : cfg.shared.switch.reason = cfg.shared.engagedBy ∧
          cfg.shared.engagedBy.isSome = true ∨
        cfg.shared.switch.reason = none ∧ ∃ tid, cfg.threads tid = .clearing)

section Steps

variable {cfg : Config} {tid : ℕ}

/-- The pending winner of the exchange stays alone when another thread moves. -/
theorem Phase.recording_goto {winner : ℕ} {reason : KillReason} {next : Point} {shared : Shared}
    (hfrom : ∀ reason, cfg.threads tid ≠ .recording reason)
    (hto : ∀ reason, next ≠ .recording reason)
    (hself : cfg.threads winner = .recording reason)
    (honly : ∀ tid' reason', cfg.threads tid' = .recording reason' → tid' = winner)
    (hactive : shared.switch.active = true) (hreason : shared.switch.reason = none)
    (hby : shared.engagedBy = some reason) : Phase (cfg.goto tid next shared) := by
  have hne : winner ≠ tid := by
    rintro rfl
    exact hfrom reason hself
  refine .recording winner reason hactive hreason hby ?_ fun tid' reason' hth => ?_
  · rw [Pool.threads_goto_of_ne cfg hne, hself]
  · rcases Pool.threads_goto_eq hth with ⟨-, hnext⟩ | ⟨-, hbefore⟩
    · exact absurd hnext (hto reason')
    · exact honly tid' reason' hbefore

theorem Phase.move (h : Phase cfg) {next : Point}
    (hfrom : ∀ reason, cfg.threads tid ≠ .recording reason) (hclear : cfg.threads tid ≠ .clearing)
    (hto : ∀ reason, next ≠ .recording reason) : Phase (cfg.goto tid next cfg.shared) := by
  cases h with
  | inactive hactive hreason hnone => exact .inactive hactive hreason (hnone.goto tid hto _)
  | recording winner reason hactive hreason hby hself honly =>
    exact recording_goto hfrom hto hself honly hactive hreason hby
  | engaged hactive hnone hreason =>
    refine .engaged hactive (hnone.goto tid hto _) (hreason.imp_right ?_)
    rintro ⟨hreason, tid', hth⟩
    have hne : tid' ≠ tid := by
      rintro rfl
      exact hclear hth
    exact ⟨hreason, tid', by rw [Pool.threads_goto_of_ne cfg hne, hth]⟩

/-- Only an inactive switch is won, and nobody else has its reason still to write. -/
theorem Phase.win (h : Phase cfg) (reason : KillReason)
    (hactive : cfg.shared.switch.active = false) :
    Phase (cfg.goto tid (.recording reason)
      ⟨{ cfg.shared.switch with active := true }, some reason⟩) := by
  cases h with
  | inactive _ hreason hnone =>
    refine .recording tid reason rfl hreason rfl (Pool.threads_goto_self ..) ?_
    intro tid' reason' hth
    rcases Pool.threads_goto_eq hth with ⟨htid, -⟩ | ⟨-, hbefore⟩
    · exact htid
    · exact absurd hbefore (hnone tid' reason')
  | recording _ _ hon => exact absurd hon (by simp [hactive])
  | engaged hon => exact absurd hon (by simp [hactive])

/-- The winner writes its reason. -/
theorem Phase.record (h : Phase cfg) {reason : KillReason}
    (hth : cfg.threads tid = .recording reason) :
    Phase (cfg.goto tid .idle
      { cfg.shared with switch := { cfg.shared.switch with reason := some reason } }) := by
  cases h with
  | inactive _ _ hnone => exact absurd hth (hnone tid reason)
  | recording winner reason' hactive hreason hby hself honly =>
    obtain rfl := honly tid reason hth
    obtain rfl : reason' = reason := by simpa [hself] using hth
    have hto : ∀ reason, Point.idle ≠ .recording reason := nofun
    exact .engaged hactive (noneRecording_goto_of_only honly hto _)
      (.inl ⟨hby.symm, by simp [hby]⟩)
  | engaged _ hnone => exact absurd hth (hnone tid reason)

/-- A reset drops the reason, and is on its way. -/
theorem Phase.drop (h : Phase cfg) (hth : cfg.threads tid = .dropping) :
    Phase (cfg.goto tid .clearing
      { cfg.shared with switch := { cfg.shared.switch with reason := none } }) := by
  have hto : ∀ reason, Point.clearing ≠ .recording reason := nofun
  cases h with
  | inactive hactive _ hnone => exact .inactive hactive rfl (hnone.goto tid hto _)
  | recording winner reason hactive _ hby hself honly =>
    exact recording_goto (by simp [hth]) hto hself honly hactive rfl hby
  | engaged hactive hnone _ =>
    exact .engaged hactive (hnone.goto tid hto _) (.inr ⟨rfl, tid, Pool.threads_goto_self ..⟩)

end Steps

/-- A clean step goes from phase to phase. -/
theorem phase_step (cfg : Config) (label : Label) (h : Phase cfg) (hclean : ClearsClean cfg label) :
    Phase (threadStep cfg label).2 := by
  have heffect := threadStep_effect cfg label
  generalize hout : threadStep cfg label = out at heffect
  cases heffect with
  | rest => exact h
  | move tid next mark hmark hfrom hclear hto => exact h.move hfrom hclear hto
  | win tid reason hactive => exact h.win reason hactive
  | record tid reason hself => exact h.record hself
  | drop tid hself => exact h.drop hself
  | clear tid hlabel hself =>
    subst hlabel
    obtain ⟨hreason, hnone⟩ := hclean hself
    have hto : ∀ reason, Point.idle ≠ .recording reason := nofun
    exact .inactive rfl hreason (hnone.goto tid hto _)

theorem phase_new : Phase .new := .inactive rfl rfl fun _ _ => nofun

/-! ## Schedules -/

/-- Without a call in flight flag and reason agree. -/
theorem Phase.agree {cfg : Config} (h : Phase cfg) (hidle : ∀ tid, cfg.threads tid = .idle) :
    Agree cfg := by
  cases h with
  | inactive hactive hreason _ => exact ⟨by simp [hactive, hreason], by simp [hactive]⟩
  | recording tid reason _ _ _ hself _ => exact absurd hself (by simp [hidle])
  | engaged hactive _ hreason =>
    obtain ⟨hreason, hby⟩ | ⟨-, tid, hth⟩ := hreason
    · exact ⟨by rw [hreason, hby, hactive], fun _ => hreason⟩
    · exact absurd hth (by simp [hidle])

/-- The switch is engaged for good. -/
def Spent (cfg : Config) : Prop := cfg.shared.switch.active = true ∧ NoneRecording cfg

/-- The call that returns true leaves nothing to be won. -/
theorem spent_of_returned {cfg : Config} {label : Label} (h : Phase cfg)
    (hmark : (threadStep cfg label).1 = some (.returned true)) : Spent (threadStep cfg label).2 := by
  have heffect := threadStep_effect cfg label
  generalize threadStep cfg label = out at heffect hmark
  cases heffect with
  | record tid reason hself =>
    cases h with
    | inactive _ _ hnone => exact absurd hself (hnone tid reason)
    | recording winner reason' hactive _ _ _ honly =>
      obtain rfl := honly tid reason hself
      have hto : ∀ reason, Point.idle ≠ .recording reason := nofun
      exact ⟨hactive, noneRecording_goto_of_only honly hto _⟩
    | engaged _ hnone => exact absurd hself (hnone tid reason)
  | move tid next mark hmove => rcases hmove with rfl | rfl <;> cases hmark
  | rest => cases hmark
  | win tid reason => cases hmark
  | drop tid => cases hmark
  | clear tid => cases hmark

theorem spent_step {cfg : Config} {label : Label} (h : Spent cfg)
    (hmark : (threadStep cfg label).1 ≠ some .cleared) :
    (threadStep cfg label).1 ≠ some (.returned true) ∧ Spent (threadStep cfg label).2 := by
  obtain ⟨hactive, hnone⟩ := h
  have heffect := threadStep_effect cfg label
  generalize threadStep cfg label = out at heffect hmark
  cases heffect with
  | rest => exact ⟨nofun, hactive, hnone⟩
  | move tid next mark hmove _ _ hto =>
    refine ⟨?_, hactive, hnone.goto tid hto _⟩
    rcases hmove with rfl | rfl <;> exact nofun
  | win tid reason hoff => exact absurd hactive (by simp [hoff])
  | record tid reason hself => exact absurd hself (hnone tid reason)
  | drop tid hself =>
    have hto : ∀ reason, Point.clearing ≠ .recording reason := nofun
    exact ⟨nofun, hactive, hnone.goto tid hto _⟩
  | clear tid => exact absurd rfl hmark

/-- Under every schedule, the flag is engaged at most once between two clearings. -/
theorem engaged_once (pre mid : List Label)
    (hstop : some .cleared ∉ runOutputs threadStep (runState threadStep .new pre) mid) :
    (runOutputs threadStep (runState threadStep .new pre) mid).count (some .engaged) ≤ 1 := by
  refine count_runOutputs_le_one threadStep (fun _ => True)
    (fun cfg => cfg.shared.switch.active = true) (fun _ _ _ _ => trivial) ?_ ?_ trivial hstop
  · intro cfg label _ hmark
    have heffect := threadStep_effect cfg label
    generalize threadStep cfg label = out at heffect hmark
    cases heffect with
    | win tid reason => rfl
    | move tid next mark hmove => rcases hmove with rfl | rfl <;> cases hmark
    | _ => cases hmark
  · intro cfg label hactive hmark
    have heffect := threadStep_effect cfg label
    generalize threadStep cfg label = out at heffect hmark
    cases heffect with
    | win tid reason hoff => exact absurd hactive (by simp [hoff])
    | clear tid => exact absurd rfl hmark
    | move tid next mark hmove =>
      refine ⟨?_, hactive⟩
      rcases hmove with rfl | rfl <;> exact nofun
    | _ => exact ⟨nofun, hactive⟩

/-- Over every schedule whose resets clear the flag only when no reason is there or still to come,
flag and reason agree. -/
theorem flagAndReason_of_clean (labels : List Label)
    (hclean : ∀ pre label post, labels = pre ++ label :: post →
      ClearsClean (runState threadStep .new pre) label) : FlagAndReason labels := by
  have hphase : ∀ pre post, labels = pre ++ post → Phase (runState threadStep .new pre) :=
    runState_invariant_split threadStep Phase phase_step phase_new hclean
  constructor
  · intro pre mid post hsplit hstop
    refine count_runOutputs_le_one threadStep Phase Spent (fun cfg label h hmark => ?_)
      (fun cfg label h hmark => spent_of_returned h hmark)
      (fun cfg label h hmark => spent_step h hmark)
      (hphase pre (mid ++ post) (by rw [hsplit, List.append_assoc])) hstop
    exact phase_step cfg label h (clearsClean_of_ne hmark)
  · intro pre post hsplit hidle
    exact (hphase pre post hsplit).agree hidle

/-- An activation wins the exchange, a reset runs through, and the activation writes its reason. -/
def overtaken : List Label :=
  [.start 0 (.activate .maxDrawdown), .advance 0, .start 1 .reset, .advance 1, .advance 1,
    .advance 0]

/-- The switch is left inactive with a reason. -/
theorem not_flagAndReason_overtaken :
    (runState threadStep .new overtaken).shared.switch = ⟨false, some .maxDrawdown⟩ ∧
      ¬ FlagAndReason overtaken := by
  refine ⟨rfl, fun h => ?_⟩
  have hidle : ∀ tid, (runState threadStep .new overtaken).threads tid = .idle
    | 0 => rfl
    | 1 => rfl
    | _ + 2 => rfl
  exact absurd (h.agree overtaken [] (List.append_nil _).symm hidle).isSome (by decide)

/-- Two activations overlap the reset of a third one: the exchange of the first comes before the flag
is cleared and loses, that of the second comes after it and wins. -/
def aroundReset : List Label :=
  [.start 0 (.activate .maxDrawdown), .advance 0, .advance 0, .start 2 (.activate .traderRequest),
    .start 1 .reset, .advance 1, .advance 2, .start 3 (.activate .supervisorHalt), .advance 1,
    .advance 3, .advance 3]

theorem flagAndReason_of_clean_aroundReset : FlagAndReason aroundReset := by
  refine flagAndReason_of_clean _ ?_
  refine forall_split_cons trivial (forall_split_cons nofun (forall_split_cons nofun
    (forall_split_cons trivial (forall_split_cons trivial (forall_split_cons nofun
    (forall_split_cons nofun (forall_split_cons trivial (forall_split_cons (fun _ => ?_)
    (forall_split_cons nofun (forall_split_cons nofun forall_split_nil))))))))))
  refine ⟨rfl, fun tid reason => ?_⟩
  match tid with
  | 0 | 1 | 2 | 3 => exact nofun
  | _ + 4 => exact nofun

end KillSwitchState

end Hedge.Risk
