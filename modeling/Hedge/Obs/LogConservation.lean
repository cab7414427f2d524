import Hedge.Obs.LogShipping
import Mathlib.Tactic.Abel

/-!
# What becomes of a log record

Whatever the threads and the shipper do in whatever order, each record that was logged is in exactly
one place. Two places are final losses: the displaced ones of a full backlog, and the abandoned ones
behind a record of the backlog that could not be pushed. The second has a further consequence: the
flag stays raised while the shipper waits for a record that the raised flag keeps away from it.
-/

namespace Hedge.Obs

open Hedge.Common

/-! ## Places -/

/-- The record a call carries. -/
def CallPoint.held : CallPoint → Multiset LogEnvelope
  | .idle => 0
  | .buffering env => {env}
  | .sending env => {env}

/-- The records the shipper carries. -/
def ShipperPoint.held : ShipperPoint → Multiset LogEnvelope
  | .receiving => 0
  | .pushing env => {env}
  | .warning env _ => {env}
  | .draining => 0
  | .flushing entries => entries
  | .rebuffering env => {env}

namespace Shipping

/-- The records that have come to rest or wait in the shared state. -/
def placed (s : Shipping) : Multiset LogEnvelope :=
  ↑s.delivered + ↑s.dropped + ↑s.displaced + ↑s.abandoned + ↑s.channel + ↑s.backlog.contents
    + s.shipper.held

theorem coe_concat (l : List LogEnvelope) (env : LogEnvelope) :
    (↑(l ++ [env]) : Multiset LogEnvelope) = ↑l + {env} := by
  rw [← Multiset.coe_add, Multiset.coe_singleton]

theorem coe_cons (env : LogEnvelope) (l : List LogEnvelope) :
    (↑(env :: l) : Multiset LogEnvelope) = ↑l + {env} := by
  rw [← Multiset.cons_coe, ← Multiset.singleton_add, add_comm]

/-- A record put in the backlog takes a place there or makes another one give up its place. -/
theorem placed_buffer (s : Shipping) (env : LogEnvelope) :
    (s.buffer env).placed = s.placed + {env} := by
  have hpush : (↑(s.backlog.push env).1.toList : Multiset LogEnvelope) +
      ↑(s.backlog.push env).2.contents = ↑s.backlog.contents + {env} := by
    rw [Multiset.coe_add, (s.backlog.push_spec env).1, coe_concat]
  simp only [placed, buffer, ← Multiset.coe_add]
  calc _ = ↑s.delivered + ↑s.dropped + ↑s.displaced + ↑s.abandoned + ↑s.channel + s.shipper.held +
        (↑(s.backlog.push env).1.toList + ↑(s.backlog.push env).2.contents) := by abel
    _ = _ := by
      rw [hpush]
      abel

/-- Where the flag sends a record, it is carried or dropped. -/
theorem placed_choose (layer : LokiLayer) (s : Shipping) (env : LogEnvelope) :
    (s.choose layer env).2.placed + (s.choose layer env).1.held = s.placed + {env} := by
  have hdrop : ({ s with dropped := s.dropped ++ [env] } : Shipping).placed = s.placed + {env} := by
    simp only [placed, coe_concat]
    abel
  rw [choose]
  cases hsev : env.severity <;> split_ifs <;> simp only [CallPoint.held, hdrop, add_zero]

theorem placed_advance (s : Shipping) (point : CallPoint) :
    (s.advance point).2.placed + (s.advance point).1.held = s.placed + point.held := by
  cases point with
  | idle => rfl
  | buffering env => exact (add_zero _).trans (s.placed_buffer env)
  | sending env =>
    rw [advance]
    split_ifs
    · simp only [placed, coe_concat, CallPoint.held]
      abel
    · rfl

/-- Two sections after the first, a call is over. -/
theorem advance_advance (s : Shipping) (point : CallPoint) :
    ((s.advance point).2.advance (s.advance point).1).1 = .idle := by
  cases point with
  | idle => rfl
  | buffering env => rfl
  | sending env =>
    rw [advance]
    split_ifs <;> rfl

theorem placed_handleEnvelope (layer : LokiLayer) (s : Shipping) (env : LogEnvelope) :
    (s.handleEnvelope layer env).placed = s.placed + {env} := by
  rw [← s.placed_choose layer env, ← placed_advance, ← placed_advance, advance_advance]
  exact (add_zero _).symm

@[simp] theorem logged_buffer (s : Shipping) (env : LogEnvelope) :
    (s.buffer env).logged = s.logged := rfl

@[simp] theorem logged_choose (layer : LokiLayer) (s : Shipping) (env : LogEnvelope) :
    (s.choose layer env).2.logged = s.logged := by
  rw [choose]
  cases env.severity <;> split_ifs <;> rfl

@[simp] theorem logged_advance (s : Shipping) (point : CallPoint) :
    (s.advance point).2.logged = s.logged := by
  cases point with
  | idle => rfl
  | buffering env => rfl
  | sending env =>
    rw [advance]
    split_ifs <;> rfl

@[simp] theorem logged_handleEnvelope (layer : LokiLayer) (s : Shipping) (env : LogEnvelope) :
    (s.handleEnvelope layer env).logged = s.logged := by
  rw [handleEnvelope, logged_advance, logged_advance, logged_choose]

/-- A call leaves the flag and the shipper alone. -/
theorem choose_frame (layer : LokiLayer) (s : Shipping) (env : LogEnvelope) :
    (s.choose layer env).2.unavailable = s.unavailable ∧
      (s.choose layer env).2.shipper = s.shipper := by
  rw [choose]
  cases env.severity <;> split_ifs <;> exact ⟨rfl, rfl⟩

theorem advance_frame (s : Shipping) (point : CallPoint) :
    (s.advance point).2.unavailable = s.unavailable ∧
      (s.advance point).2.shipper = s.shipper := by
  cases point with
  | idle => exact ⟨rfl, rfl⟩
  | buffering env => exact ⟨rfl, rfl⟩
  | sending env =>
    rw [advance]
    split_ifs <;> exact ⟨rfl, rfl⟩

theorem handleEnvelope_frame (layer : LokiLayer) (s : Shipping) (env : LogEnvelope) :
    (s.handleEnvelope layer env).unavailable = s.unavailable ∧
      (s.handleEnvelope layer env).shipper = s.shipper := by
  simp only [handleEnvelope, advance_frame, choose_frame, and_self]

/-- The places when the shipper goes on to another point. -/
theorem placed_shipper (s : Shipping) (point : ShipperPoint) :
    ({ s with shipper := point } : Shipping).placed + s.shipper.held = s.placed + point.held := by
  simp only [placed]
  abel

/-- What the shipper does moves records, and places those it logs itself. -/
theorem placed_ship (layer : LokiLayer) (s : Shipping) (ok : Bool) (warn : Option LogEvent) :
    (↑(s.ship layer ok warn).logged : Multiset LogEnvelope) + s.placed =
      ↑s.logged + (s.ship layer ok warn).placed := by
  rw [ship]
  cases hship : s.shipper with
  | receiving =>
    cases hchannel : s.channel with
    | nil => rfl
    | cons env channel =>
      simp only [placed, hship, hchannel, coe_cons, ShipperPoint.held]
      abel
  | pushing env =>
    cases ok with
    | true =>
      cases hflag : s.unavailable <;>
      · simp only [placed, hship, coe_concat, ShipperPoint.held, if_true, Bool.false_eq_true,
          if_false]
        abel
    | false => cases warn <;> simp [placed, hship, ShipperPoint.held]
  | warning env warn =>
    set own := ({ warn with level := .warn } : LogEvent).envelope with hown
    have hheld := placed_shipper ((s.record own).handleEnvelope layer own) (.pushing env)
    rw [(handleEnvelope_frame ..).2, placed_handleEnvelope] at hheld
    have hsame : (s.record own).placed = s.placed := rfl
    have hpoint : (s.record own).shipper.held = ({env} : Multiset LogEnvelope) := by
      rw [record, hship]
      rfl
    rw [hsame, hpoint] at hheld
    have hlogged : ((s.record own).handleEnvelope layer own).logged = s.logged ++ [own] :=
      logged_handleEnvelope layer (s.record own) own
    calc (↑((s.record own).handleEnvelope layer own).logged : Multiset LogEnvelope) + s.placed
        = ↑s.logged + (s.placed + {own}) := by
          rw [hlogged, coe_concat]
          abel
      _ = _ := by rw [← add_right_cancel hheld]
  | draining =>
    simp only [placed, hship, ShipperPoint.held, BoundedRingLogBuffer.contents_drain,
      BoundedRingLogBuffer.fst_drain, Multiset.coe_nil]
    abel
  | flushing entries =>
    cases entries with
    | nil => simp [placed, hship, ShipperPoint.held]
    | cons env entries =>
      cases ok with
      | true =>
        simp only [placed, hship, coe_concat, coe_cons, ShipperPoint.held, if_true]
        abel
      | false =>
        simp only [placed, hship, coe_cons, ShipperPoint.held, Bool.false_eq_true, if_false,
          ← Multiset.coe_add]
        abel
  | rebuffering env =>
    have hheld := placed_shipper (s.buffer env) .receiving
    have hpoint : (s.buffer env).shipper.held = ({env} : Multiset LogEnvelope) := by
      rw [buffer, hship]
      rfl
    rw [hpoint, placed_buffer] at hheld
    have hplaced : ({ s.buffer env with shipper := .receiving } : Shipping).placed = s.placed :=
      add_right_cancel (hheld.trans (add_zero _))
    exact congrArg ((↑s.logged : Multiset LogEnvelope) + ·) hplaced.symm

/-! ## What is dropped at the source -/

/-- Only records of low severity have been dropped, and only where the policy says so. -/
def DropsLow (layer : LokiLayer) (s : Shipping) : Prop :=
  ∀ env ∈ s.dropped, env.severity = .low ∧ layer.dropLowSeverityOnUnavailable = true

theorem DropsLow.choose {layer : LokiLayer} {s : Shipping} (h : s.DropsLow layer)
    (env : LogEnvelope) : (s.choose layer env).2.DropsLow layer := by
  rw [Shipping.choose]
  cases hsev : env.severity with
  | high => split_ifs <;> exact h
  | low =>
    split_ifs with hflag hdrop
    · intro env' henv'
      rcases List.mem_append.mp henv' with henv' | henv'
      · exact h env' henv'
      · rw [List.mem_singleton.mp henv']
        exact ⟨hsev, hdrop⟩
    · exact h
    · exact h
    · exact h

@[simp] theorem dropped_advance (s : Shipping) (point : CallPoint) :
    (s.advance point).2.dropped = s.dropped := by
  cases point with
  | idle => rfl
  | buffering env => rfl
  | sending env =>
    rw [advance]
    split_ifs <;> rfl

theorem DropsLow.ship {layer : LokiLayer} {s : Shipping} (h : s.DropsLow layer) (ok : Bool)
    (warn : Option LogEvent) : (s.ship layer ok warn).DropsLow layer := by
  rw [Shipping.ship]
  cases s.shipper with
  | receiving => cases hchannel : s.channel <;> exact h
  | pushing env => split_ifs <;> exact h
  | warning env warn =>
    have hchoose := DropsLow.choose (s := s.record { warn with level := .warn }.envelope) h
      { warn with level := .warn }.envelope
    simpa only [DropsLow, handleEnvelope, dropped_advance] using hchoose
  | draining => exact h
  | flushing entries =>
    cases entries with
    | nil => exact h
    | cons env entries => cases ok <;> exact h
  | rebuffering env => exact h

end Shipping

/-! ## Any order of steps -/

/-- Every record that was logged is in one place or carried by one call. -/
def Balanced (c : Logging) : Prop :=
  ∃ inCalls : Multiset LogEnvelope, c.Total CallPoint.held inCalls ∧
    (↑c.shared.logged : Multiset LogEnvelope) = c.shared.placed + inCalls

theorem balanced_init : Balanced .init :=
  ⟨0, Pool.total_zero fun _ => rfl, rfl⟩

theorem Balanced.step {layer : LokiLayer} {c : Logging} (h : Balanced c) (a : LogStep) :
    Balanced (logStep layer c a).2 := by
  obtain ⟨inCalls, htotal, hbalance⟩ := h
  cases a with
  | log tid ev =>
    cases hpoint : c.threads tid with
    | buffering | sending =>
      simp only [logStep, hpoint]
      exact ⟨inCalls, htotal, hbalance⟩
    | idle =>
      obtain ⟨others, hothers, hgoto⟩ := htotal.goto tid
      rw [hpoint, CallPoint.held, add_zero] at hothers
      have hchoose := (c.shared.record ev.envelope).placed_choose layer ev.envelope
      have hrecord : (c.shared.record ev.envelope).placed = c.shared.placed := rfl
      simp only [logStep, hpoint]
      refine ⟨_, hgoto _ _, ?_⟩
      rw [Pool.shared_goto, Shipping.logged_choose, Shipping.record, Shipping.coe_concat, hbalance,
        hothers]
      rw [Shipping.record] at hchoose hrecord
      rw [add_comm others, ← add_assoc, hchoose, hrecord]
      abel
  | advance tid =>
    obtain ⟨others, hothers, hgoto⟩ := htotal.goto tid
    have hadvance := c.shared.placed_advance (c.threads tid)
    refine ⟨others + (c.shared.advance (c.threads tid)).1.held, hgoto _ _, ?_⟩
    simp only [logStep, Pool.shared_goto, Shipping.logged_advance]
    rw [hbalance, hothers, add_comm others, add_comm others, ← add_assoc, ← add_assoc, hadvance]
  | ship ok warn =>
    refine ⟨inCalls, htotal, ?_⟩
    have hship := c.shared.placed_ship layer ok warn
    rw [hbalance] at hship
    refine add_right_cancel (b := c.shared.placed) (hship.trans ?_)
    simp only [logStep]
    abel

theorem balanced_after (layer : LokiLayer) (steps : List LogStep) :
    Balanced (Logging.after layer steps) :=
  runState_invariant_all (logStep layer) Balanced (fun _ a h => h.step a) balanced_init steps

theorem dropsLow_step {layer : LokiLayer} {c : Logging} (h : c.shared.DropsLow layer) (a : LogStep) :
    (logStep layer c a).2.shared.DropsLow layer := by
  cases a with
  | log tid ev =>
    cases hpoint : c.threads tid with
    | buffering | sending =>
      simp only [logStep, hpoint]
      exact h
    | idle =>
      simp only [logStep, hpoint]
      exact Shipping.DropsLow.choose (s := c.shared.record ev.envelope) h ev.envelope
  | advance tid =>
    intro env henv
    simp only [logStep, Pool.shared_goto, Shipping.dropped_advance] at henv
    exact h env henv
  | ship ok warn => exact h.ship ok warn

/-- Whatever is logged is delivered, waits in the channel, in the backlog or with the shipper, is
carried by a call, or was dropped, displaced or abandoned, and each record is just one of these; what
was dropped had a low severity and the policy against it. -/
theorem every_record_accounted (layer : LokiLayer) (steps : List LogStep) :
    let s := (Logging.after layer steps).shared
    ∃ inCalls : Multiset LogEnvelope,
      (Logging.after layer steps).Total CallPoint.held inCalls ∧
      (↑s.logged : Multiset LogEnvelope) =
        ↑s.delivered + ↑s.dropped + ↑s.displaced + ↑s.abandoned + ↑s.channel +
          ↑s.backlog.contents + s.shipper.held + inCalls ∧
      ∀ env ∈ s.dropped, env.severity = .low ∧ layer.dropLowSeverityOnUnavailable = true := by
  obtain ⟨inCalls, htotal, hbalance⟩ := balanced_after layer steps
  have hdropped : (Logging.after layer steps).shared.DropsLow layer :=
    runState_invariant_all (logStep layer) (fun c => c.shared.DropsLow layer)
      (fun _ a h => dropsLow_step h a) (fun env henv => absurd henv List.not_mem_nil) steps
  exact ⟨inCalls, htotal, hbalance, hdropped⟩

/-! ## When shipping stops

The channel gets records only while the flag is down, and the flag is taken down only after a push of
a record from the channel. -/

/-- The flag is up, and nothing is on its way to the shipper that waits. -/
structure Stopped (c : Logging) : Prop where
  unavailable : c.shared.unavailable = true
  shipper : c.shared.shipper = .receiving
  channel : c.shared.channel = []
  threads : ∀ tid env, c.threads tid ≠ .sending env

/-- Nothing was shipped or abandoned between two states: records were only logged, dropped and
displaced. -/
structure Shipping.Halted (s s' : Shipping) : Prop where
  delivered : s'.delivered = s.delivered
  abandoned : s'.abandoned = s.abandoned
  logged : s.logged <+: s'.logged
  dropped : s.dropped <+: s'.dropped
  displaced : s.displaced <+: s'.displaced

theorem Shipping.Halted.refl (s : Shipping) : s.Halted s :=
  ⟨rfl, rfl, List.prefix_rfl, List.prefix_rfl, List.prefix_rfl⟩

theorem Shipping.Halted.trans {s t u : Shipping} (h : s.Halted t) (h' : t.Halted u) :
    s.Halted u where
  delivered := h'.delivered.trans h.delivered
  abandoned := h'.abandoned.trans h.abandoned
  logged := h.logged.trans h'.logged
  dropped := h.dropped.trans h'.dropped
  displaced := h.displaced.trans h'.displaced

theorem Shipping.halted_record (s : Shipping) (env : LogEnvelope) : s.Halted (s.record env) :=
  { Halted.refl s with logged := List.prefix_append .. }

theorem Shipping.halted_buffer (s : Shipping) (env : LogEnvelope) : s.Halted (s.buffer env) :=
  { Halted.refl s with displaced := List.prefix_append .. }

theorem Shipping.choose_of_unavailable {layer : LokiLayer} {s : Shipping} {env : LogEnvelope}
    (h : s.unavailable = true) :
    (∀ env', (s.choose layer env).1 ≠ .sending env') ∧
      (s.choose layer env).2.channel = s.channel ∧ s.Halted (s.choose layer env).2 := by
  rw [Shipping.choose, if_pos h]
  cases env.severity with
  | high => exact ⟨by simp, rfl, .refl s⟩
  | low =>
    split_ifs
    · exact ⟨by simp, rfl, { Halted.refl s with dropped := List.prefix_append .. }⟩
    · exact ⟨by simp, rfl, .refl s⟩

theorem Stopped.step {layer : LokiLayer} {c : Logging} (h : Stopped c) (a : LogStep) :
    Stopped (logStep layer c a).2 ∧ c.shared.Halted (logStep layer c a).2.shared := by
  cases a with
  | log tid ev =>
    cases hpoint : c.threads tid with
    | buffering | sending =>
      simp only [logStep, hpoint]
      exact ⟨h, .refl _⟩
    | idle =>
      obtain ⟨hflag, hshipper⟩ :=
        Shipping.choose_frame layer (c.shared.record ev.envelope) ev.envelope
      obtain ⟨hpoint', hchannel, hhalted⟩ :=
        @Shipping.choose_of_unavailable layer (c.shared.record ev.envelope) ev.envelope
          h.unavailable
      simp only [logStep, hpoint]
      refine ⟨⟨hflag.trans h.unavailable, hshipper.trans h.shipper, hchannel.trans h.channel, ?_⟩,
        (c.shared.halted_record ev.envelope).trans hhalted⟩
      exact Pool.forall_threads_goto (P := fun _ point => ∀ env, point ≠ CallPoint.sending env)
        (fun t _ => h.threads t) hpoint'
  | advance tid =>
    have hthreads : ∀ s t env, (c.goto tid .idle s).threads t ≠ CallPoint.sending env := fun s =>
      Pool.forall_threads_goto (P := fun _ point => ∀ env, point ≠ CallPoint.sending env)
        (fun t _ => h.threads t) fun env => by simp
    cases hpoint : c.threads tid with
    | sending env => exact absurd hpoint (h.threads tid env)
    | idle =>
      simp only [logStep, hpoint, Shipping.advance]
      exact ⟨⟨h.unavailable, h.shipper, h.channel, hthreads _⟩, .refl _⟩
    | buffering env =>
      simp only [logStep, hpoint, Shipping.advance]
      exact ⟨⟨h.unavailable, h.shipper, h.channel, hthreads _⟩, c.shared.halted_buffer env⟩
  | ship ok warn =>
    have hstay : c.shared.ship layer ok warn = c.shared := by
      rw [Shipping.ship, h.shipper, h.channel]
    simp only [logStep, hstay]
    exact ⟨h, .refl _⟩

theorem Stopped.run {c : Logging} (h : Stopped c) (layer : LokiLayer) (later : List LogStep) :
    Stopped (runState (logStep layer) c later) ∧
      c.shared.Halted (runState (logStep layer) c later).shared :=
  runState_invariant_all (logStep layer) (fun c' => Stopped c' ∧ c.shared.Halted c'.shared)
    (fun _ a hc => ⟨(hc.1.step a).1, hc.2.trans (hc.1.step a).2⟩) ⟨h, .refl _⟩ later

/-- Between two such states the records that were logged, or waited for the backlog or in it, are
those that were dropped or displaced, or wait for the backlog or in it. -/
theorem Balanced.between {c c' : Logging} (hc : Balanced c) (hc' : Balanced c') (h : Stopped c)
    (h' : Stopped c') (hhalted : c.shared.Halted c'.shared) :
    ∃ logged dropped displaced : List LogEnvelope,
      c'.shared.logged = c.shared.logged ++ logged ∧
      c'.shared.dropped = c.shared.dropped ++ dropped ∧
      c'.shared.displaced = c.shared.displaced ++ displaced ∧
      ∃ inCalls inCalls' : Multiset LogEnvelope,
        c.Total CallPoint.held inCalls ∧ c'.Total CallPoint.held inCalls' ∧
        ↑logged + ↑c.shared.backlog.contents + inCalls =
          ↑dropped + ↑displaced + ↑c'.shared.backlog.contents + inCalls' := by
  obtain ⟨logged, hlogged⟩ := hhalted.logged
  obtain ⟨dropped, hdropped⟩ := hhalted.dropped
  obtain ⟨displaced, hdisplaced⟩ := hhalted.displaced
  obtain ⟨inCalls, htotal, hbalance⟩ := hc
  obtain ⟨inCalls', htotal', hbalance'⟩ := hc'
  refine ⟨logged, dropped, displaced, hlogged.symm, hdropped.symm, hdisplaced.symm, inCalls,
    inCalls', htotal, htotal', ?_⟩
  simp only [Shipping.placed, h.shipper, h.channel, ShipperPoint.held, Multiset.coe_nil,
    add_zero] at hbalance
  simp only [Shipping.placed, h'.shipper, h'.channel, ShipperPoint.held, Multiset.coe_nil,
    add_zero, hhalted.delivered, hhalted.abandoned, ← hlogged, ← hdropped, ← hdisplaced,
    ← Multiset.coe_add, hbalance] at hbalance'
  set rest : Multiset LogEnvelope := ↑c.shared.delivered + ↑c.shared.dropped +
    ↑c.shared.displaced + ↑c.shared.abandoned with hrest
  refine add_left_cancel (a := rest) ?_
  calc rest + (↑logged + ↑c.shared.backlog.contents + inCalls)
      = rest + ↑c.shared.backlog.contents + inCalls + ↑logged := by abel
    _ = _ := by
      rw [hbalance', hrest]
      abel

/-- Up to a failed push of a backlog record, the flag is up only while the shipper repeats a push. -/
def Repeating (s : Shipping) : Prop :=
  (s.unavailable = true → ∃ env, s.shipper = .pushing env ∨ ∃ warn, s.shipper = .warning env warn) ∧
    ∀ env, s.shipper ≠ .rebuffering env

/-- The shipper waits for the answer to a push of a backlog record. -/
def Shipping.FlushesOne (s : Shipping) : Prop := ∃ env entries, s.shipper = .flushing (env :: entries)

theorem Repeating.of_frame {s s' : Shipping} (h : Repeating s) (hflag : s'.unavailable = s.unavailable)
    (hshipper : s'.shipper = s.shipper) : Repeating s' := by
  rw [Repeating, hflag, hshipper]
  exact h

theorem Repeating.down {s : Shipping} (h : Repeating s) (hpushing : ∀ env, s.shipper ≠ .pushing env)
    (hwarning : ∀ env warn, s.shipper ≠ .warning env warn) : s.unavailable = false := by
  refine Bool.eq_false_iff.mpr fun hup => ?_
  obtain ⟨env, henv | ⟨warn, henv⟩⟩ := h.1 hup
  · exact hpushing env henv
  · exact hwarning env warn henv

theorem Repeating.ship {layer : LokiLayer} {s : Shipping} (h : Repeating s) {ok : Bool}
    {warn : Option LogEvent} (hok : s.FlushesOne → ok = true) :
    Repeating (s.ship layer ok warn) := by
  rw [Shipping.ship]
  cases hship : s.shipper with
  | receiving =>
    have hdown := h.down (by simp [hship]) (by simp [hship])
    cases s.channel <;> simp [Repeating, hdown, hship]
  | pushing env => cases ok <;> cases hflag : s.unavailable <;> cases warn <;> simp [Repeating]
  | warning env warn => simp [Repeating]
  | draining =>
    have hdown := h.down (by simp [hship]) (by simp [hship])
    simp [Repeating, hdown]
  | flushing entries =>
    have hdown := h.down (by simp [hship]) (by simp [hship])
    cases entries with
    | nil => simp [Repeating, hdown]
    | cons env entries =>
      rw [hok ⟨env, entries, hship⟩]
      simp [Repeating, hdown]
  | rebuffering env => exact absurd hship (h.2 env)

theorem Repeating.step {layer : LokiLayer} {c : Logging} (h : Repeating c.shared) {a : LogStep}
    (hok : ∀ warn, a = .ship false warn → ¬ c.shared.FlushesOne) :
    Repeating (logStep layer c a).2.shared := by
  cases a with
  | log tid ev =>
    cases hpoint : c.threads tid with
    | buffering | sending =>
      simp only [logStep, hpoint]
      exact h
    | idle =>
      obtain ⟨hflag, hshipper⟩ := Shipping.choose_frame layer (c.shared.record ev.envelope) ev.envelope
      simp only [logStep, hpoint]
      exact h.of_frame hflag hshipper
  | advance tid =>
    obtain ⟨hflag, hshipper⟩ := Shipping.advance_frame c.shared (c.threads tid)
    exact h.of_frame hflag hshipper
  | ship ok warn =>
    refine h.ship fun hflush => ?_
    cases ok with
    | true => rfl
    | false => exact absurd hflush (hok warn rfl)

/-- Shipping stops only through a failed push of a backlog record, and then for good: whatever is
logged later, nothing more is delivered, and each record goes to the backlog or is dropped. -/
theorem stopped_for_good (layer : LokiLayer) (steps : List LogStep)
    (h : Stopped (Logging.after layer steps)) :
    (∃ pre warn post, steps = pre ++ .ship false warn :: post ∧
      (Logging.after layer pre).shared.FlushesOne) ∧
    ∀ later,
      let c := Logging.after layer steps
      let c' := Logging.after layer (steps ++ later)
      Stopped c' ∧ c'.shared.delivered = c.shared.delivered ∧
      ∃ logged dropped displaced : List LogEnvelope,
        c'.shared.logged = c.shared.logged ++ logged ∧
        c'.shared.dropped = c.shared.dropped ++ dropped ∧
        c'.shared.displaced = c.shared.displaced ++ displaced ∧
        ∃ inCalls inCalls' : Multiset LogEnvelope,
          c.Total CallPoint.held inCalls ∧ c'.Total CallPoint.held inCalls' ∧
          ↑logged + ↑c.shared.backlog.contents + inCalls =
            ↑dropped + ↑displaced + ↑c'.shared.backlog.contents + inCalls' := by
  constructor
  · by_contra hnone
    have hrepeating : Repeating (Logging.after layer steps).shared := by
      refine runState_invariant_along (logStep layer) (fun c => Repeating c.shared)
        ⟨fun hup => absurd hup (by decide), fun env => by simp [Logging.init, Shipping.init]⟩ ?_
      intro pre a post hsplit hpre
      refine hpre.step ?_
      rintro warn rfl hflush
      exact hnone ⟨pre, warn, post, hsplit, hflush⟩
    have hdown := hrepeating.down (by simp [h.shipper]) (by simp [h.shipper])
    rw [h.unavailable] at hdown
    cases hdown
  · intro later c c'
    obtain ⟨hstopped, hhalted⟩ := h.run layer later
    rw [Logging.after, ← runState_append] at hstopped hhalted
    exact ⟨hstopped, hhalted.delivered,
      (balanced_after layer steps).between (balanced_after layer (steps ++ later)) h hstopped
        hhalted⟩

/-- An error that a thread logs. -/
def fault (timestampNs : ℕ) : LogEvent := ⟨timestampNs, .error, "hedge_exec", "order rejected"⟩

/-- Loki misses a record, takes it on the second try, and then misses the backlog. -/
def missedTwice : List LogStep :=
  [.log 0 (fault 1), .advance 0, .ship true none, .ship false none, .log 0 (fault 2), .advance 0,
    .ship true none, .ship true none, .ship false none, .ship true none]

theorem stopped_missedTwice : Stopped (Logging.after ⟨true, true⟩ missedTwice) := by
  refine ⟨rfl, rfl, rfl, fun tid env => ?_⟩
  cases tid <;>
  · intro h
    cases h

theorem missedTwice_for_good :
    (∃ pre warn post, missedTwice = pre ++ .ship false warn :: post ∧
      (Logging.after ⟨true, true⟩ pre).shared.FlushesOne) ∧
    ∀ later,
      let c := Logging.after ⟨true, true⟩ missedTwice
      let c' := Logging.after ⟨true, true⟩ (missedTwice ++ later)
      Stopped c' ∧ c'.shared.delivered = c.shared.delivered ∧
      ∃ logged dropped displaced : List LogEnvelope,
        c'.shared.logged = c.shared.logged ++ logged ∧
        c'.shared.dropped = c.shared.dropped ++ dropped ∧
        c'.shared.displaced = c.shared.displaced ++ displaced ∧
        ∃ inCalls inCalls' : Multiset LogEnvelope,
          c.Total CallPoint.held inCalls ∧ c'.Total CallPoint.held inCalls' ∧
          ↑logged + ↑c.shared.backlog.contents + inCalls =
            ↑dropped + ↑displaced + ↑c'.shared.backlog.contents + inCalls' :=
  stopped_for_good ⟨true, true⟩ missedTwice stopped_missedTwice

end Hedge.Obs
