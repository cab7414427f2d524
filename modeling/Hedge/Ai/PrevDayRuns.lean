import Hedge.Ai.PrevDay

/-!
# What the previous-day memory announces

Reference: `hedge_warm_ai/prev_day/engine.py`.

The job of a session may fail, be cancelled or be killed at any of its awaits, and a later one may
run over the rows it left. Whatever happens, a row is published and a dataset announced only after
all rows of the job have been stored (`announced_after_stored`).
-/

namespace Hedge.Ai.PrevDay

open Hedge.Common

/-! ## What a row is checked for -/

/-- What `build_prev_day_row` checks beyond the bounds of the model. -/
structure PreviousDayMemoryRow.Consistent (row : PreviousDayMemoryRow) : Prop where
  ts_eq : row.ts = sessionDateToTs row.sessionDate
  open_mem : row.lowPaise ≤ row.openPaise ∧ row.openPaise ≤ row.highPaise
  close_mem : row.lowPaise ≤ row.closePaise ∧ row.closePaise ≤ row.highPaise
  vwap_mem : row.lowPaise ≤ row.vwapPaise ∧ row.vwapPaise ≤ row.highPaise
  delivery_le : row.deliveryVolume ≤ row.totalVolume

theorem priceOutside_eq_none {data : SymbolSessionData} (h : priceOutside data = none) :
    (data.lowPaise ≤ data.openPaise ∧ data.openPaise ≤ data.highPaise) ∧
      (data.lowPaise ≤ data.closePaise ∧ data.closePaise ≤ data.highPaise) ∧
      (data.lowPaise ≤ data.vwapPaise ∧ data.vwapPaise ≤ data.highPaise) := by
  rw [priceOutside, Option.map_eq_none_iff, List.find?_eq_none] at h
  refine ⟨?_, ?_, ?_⟩
  · simpa using h ("open_paise", data.openPaise) (by simp)
  · simpa using h ("close_paise", data.closePaise) (by simp)
  · simpa using h ("vwap_paise", data.vwapPaise) (by simp)

theorem consistent_of_build {data : SymbolSessionData} {computedTsNs : ℤ}
    {row : PreviousDayMemoryRow} (h : buildPrevDayRow data computedTsNs = .ok row) :
    row.Consistent := by
  unfold buildPrevDayRow at h
  cases hprice : priceOutside data with
  | some field =>
    rw [hprice] at h
    dsimp only at h
    split_ifs at h
  | none =>
    obtain ⟨hopen, hclose, hvwap⟩ := priceOutside_eq_none hprice
    cases hlevels : data.keyLevels.mapM coerceKeyLevel with
    | error e =>
      rw [hprice, hlevels] at h
      dsimp only at h
      split_ifs at h
    | ok keyLevels =>
      rw [hprice, hlevels] at h
      dsimp only at h
      split_ifs at h with hrange htotal hdelivery hle hclock hbounds
      cases h
      refine ⟨rfl, hopen, hclose, hvwap, ?_⟩
      show data.deliveryVolume.toNat ≤ data.totalVolume.toNat
      omega

theorem consistent_of_mem_sessionRows {inputs : List SymbolSessionData} {clockNs : ℤ}
    {row : PreviousDayMemoryRow} (h : row ∈ sessionRows inputs clockNs) : row.Consistent := by
  obtain ⟨data, -, hbuild⟩ := List.mem_filterMap.mp h
  cases hrow : buildPrevDayRow data clockNs with
  | error e =>
    rw [hrow] at hbuild
    cases hbuild
  | ok built =>
    rw [hrow] at hbuild
    cases hbuild
    exact consistent_of_build hrow

/-! ## Stored rows -/

/-- The table holds, for the key of each of the rows, the last of them with that key. -/
def Stored (table : PrevDayTable) (rows : List PreviousDayMemoryRow) : Prop :=
  ∀ row ∈ rows, table.get row.key = lastWith PreviousDayMemoryRow.key row.key rows

theorem Stored.append {table : PrevDayTable} {written : List PreviousDayMemoryRow}
    (h : Stored table written) (batch : List PreviousDayMemoryRow) :
    Stored (table.upsertAll batch) (written ++ batch) := by
  intro row hrow
  rw [Table.get_upsertAll, lastWith_append]
  rcases List.mem_append.mp hrow with hmem | hmem
  · rw [h row hmem]
  · -- the batch has a row for the key
    have hsome : (lastWith PreviousDayMemoryRow.key row.key batch).isSome = true :=
      isSome_lastWith_iff.mpr ⟨row, hmem, rfl⟩
    obtain ⟨last, hlast⟩ := Option.isSome_iff_exists.mp hsome
    rw [hlast]
    rfl

/-- The rows a stage works on. -/
def Stage.rows : Stage → List PreviousDayMemoryRow
  | .provider => []
  | .write rows _ | .index rows | .publish rows _ | .ready rows => rows

/-- What holds of the table while a job waits at a stage. -/
def Stage.Sound (table : PrevDayTable) : Stage → Prop
  | .provider => True
  | .write rows left => left ≠ [] ∧ ∃ written, rows = written ++ left.flatten ∧ Stored table written
  | .index rows | .ready rows => Stored table rows
  | .publish rows left => Stored table rows ∧ left ≠ [] ∧ ∀ row ∈ left, row ∈ rows

/-- What is published of some rows. -/
def Published.Of (rows : List PreviousDayMemoryRow) : Published → Prop
  | .memory symbolId event => ∃ row ∈ rows, symbolId = row.symbolId ∧ event = buildPrevDayEvent row
  | .ready _ symbolCount _ => symbolCount = rows.length

/-! ## One step -/

namespace PrevDayMemoryEngine

variable {cfg : PrevDayConfig} {engine : PrevDayMemoryEngine} {job : Job}

/-- A call stores rows of its job and changes nothing else of the engine. -/
theorem effectIf_spec (done : Bool) (engine : PrevDayMemoryEngine)
    (hsound : job.stage.Sound engine.table) (clockNs : ℤ) :
    ∃ batch, (∀ row ∈ batch, row ∈ job.stage.rows) ∧
      (engine.effectIf done job clockNs).2 = engine.store batch := by
  unfold effectIf effect
  split_ifs
  · split
    case h_1 rows batch left hstage =>
      rw [hstage] at hsound
      obtain ⟨-, written, hrows, -⟩ := hsound
      refine ⟨batch, fun row hrow => ?_, rfl⟩
      show row ∈ job.stage.rows
      rw [hstage, Stage.rows, hrows]
      exact List.mem_append_right _ (List.mem_append_left _ hrow)
    all_goals exact ⟨[], fun _ h => absurd h List.not_mem_nil, rfl⟩
  · exact ⟨[], fun _ h => absurd h List.not_mem_nil, rfl⟩

/-- The call a job waits for makes its next stage sound. -/
theorem sound_next (hsound : job.stage.Sound engine.table)
    (hrows : job.stage ≠ .provider → job.stage.rows ≠ []) {action : Action} {stage : Stage}
    (hawaits : job.stage.awaits action = true) (hnext : job.stage.next cfg action = some stage) :
    stage.Sound (engine.effectIf action.outcome.1 job action.outcome.2).2.table ∧
      (stage.rows = job.stage.rows ∨ ∃ inputs clockNs, action = .inputs (some inputs) clockNs ∧
        stage.rows = sessionRows inputs clockNs) ∧ stage ≠ .provider ∧ stage.rows ≠ [] := by
  obtain ⟨date, current⟩ := job
  dsimp only at hsound hrows hawaits hnext ⊢
  cases current with
  | provider =>
    cases action with
    | inputs answer clockNs =>
      cases answer with
      | none => cases hnext
      | some inputs =>
        simp only [Stage.next] at hnext
        split_ifs at hnext with hstop
        cases hnext
        rw [not_or] at hstop
        have hflatten := flatten_batches (Nat.pos_of_ne_zero hstop.2) (sessionRows inputs clockNs)
        refine ⟨⟨fun hnil => hstop.1 ?_, [], hflatten.symm, fun row hrow => ?_⟩,
          .inr ⟨inputs, clockNs, rfl, rfl⟩, Stage.noConfusion, hstop.1⟩
        · rw [← hflatten, hnil, List.flatten_nil]
        · cases hrow
    | _ => cases hawaits
  | write rows left =>
    cases action with
    | written =>
      obtain ⟨hne, written, hsplit, hstored⟩ := hsound
      cases left with
      | nil => exact absurd rfl hne
      | cons batch left =>
        cases hnext
        have hbatch := hstored.append batch
        have hrest : rows = (written ++ batch) ++ left.flatten := by
          rw [hsplit, List.flatten_cons, List.append_assoc]
        by_cases hlast : left = []
        · -- the last batch: all rows are stored
          rw [hlast, List.flatten_nil, List.append_nil] at hrest
          rw [if_pos hlast]
          have hall : Stored (engine.table.upsertAll batch) rows := hrest ▸ hbatch
          unfold Stage.afterWrites
          split_ifs
          · exact ⟨hall, .inl rfl, Stage.noConfusion, hrows Stage.noConfusion⟩
          · exact ⟨⟨hall, hrows Stage.noConfusion, fun _ h => h⟩, .inl rfl, Stage.noConfusion,
              hrows Stage.noConfusion⟩
        · rw [if_neg hlast]
          exact ⟨⟨hlast, written ++ batch, hrest, hbatch⟩, .inl rfl, Stage.noConfusion,
            hrows Stage.noConfusion⟩
    | _ => cases hawaits
  | index rows =>
    cases action with
    | indexed =>
      cases hnext
      exact ⟨⟨hsound, hrows Stage.noConfusion, fun _ h => h⟩, .inl rfl, Stage.noConfusion,
        hrows Stage.noConfusion⟩
    | _ => cases hawaits
  | publish rows left =>
    cases action with
    | published done clockNs =>
      obtain ⟨hstored, hne, hleft⟩ := hsound
      cases left with
      | nil => exact absurd rfl hne
      | cons row left =>
        cases hnext
        have htable : (engine.effectIf done ⟨date, .publish rows (row :: left)⟩ clockNs).2.table
            = engine.table := by
          unfold effectIf
          split_ifs <;> rfl
        split_ifs with hlast
        · exact ⟨htable.symm ▸ hstored, .inl rfl, Stage.noConfusion, hrows Stage.noConfusion⟩
        · exact ⟨⟨htable.symm ▸ hstored, hlast, fun r hr => hleft r (List.mem_cons_of_mem _ hr)⟩,
            .inl rfl, Stage.noConfusion, hrows Stage.noConfusion⟩
    | _ => cases hawaits
  | ready rows => cases action <;> cases hnext

/-- What an action does: nothing but start a job, or the call that a job waits for; the job then
ends or goes on to its next stage. -/
theorem step_cases (cfg : PrevDayConfig) (engine : PrevDayMemoryEngine) (action : Action) :
    ((engine.step cfg action).1 = [] ∧ (engine.step cfg action).2.table = engine.table ∧
      ∀ job ∈ (engine.step cfg action).2.computeTask,
        job ∈ engine.computeTask ∨ job.stage = .provider) ∨
    ∃ job done clockNs, engine.computeTask = some job ∧
      (engine.step cfg action).1 = (engine.effectIf done job clockNs).1 ∧
      (engine.step cfg action).2.table = (engine.effectIf done job clockNs).2.table ∧
      ∀ job' ∈ (engine.step cfg action).2.computeTask,
        job.stage.awaits action = true ∧ job.stage.next cfg action = some job'.stage ∧
          (done, clockNs) = action.outcome := by
  have hresume : ∀ job, engine.computeTask = some job → job.stage.awaits action = true →
      ∃ done clockNs, (engine.resume cfg job action).1 = (engine.effectIf done job clockNs).1 ∧
        (engine.resume cfg job action).2.table = (engine.effectIf done job clockNs).2.table ∧
        ∀ job' ∈ (engine.resume cfg job action).2.computeTask,
          job.stage.awaits action = true ∧ job.stage.next cfg action = some job'.stage ∧
            (done, clockNs) = action.outcome := by
    intro job hjob hawaits
    refine ⟨action.outcome.1, action.outcome.2, ?_⟩
    unfold resume
    cases hnext : job.stage.next cfg action with
    | none => exact ⟨rfl, rfl, fun _ h => by cases h⟩
    | some stage =>
      refine ⟨rfl, rfl, ?_⟩
      rintro _ ⟨⟩
      exact ⟨hawaits, rfl, rfl⟩
  have hinterrupt : ∀ done clockNs,
      ((engine.interrupt done clockNs).1 = [] ∧
        (engine.interrupt done clockNs).2.table = engine.table) ∨
      ∃ job, engine.computeTask = some job ∧
        (engine.interrupt done clockNs).1 = (engine.effectIf done job clockNs).1 ∧
        (engine.interrupt done clockNs).2.table = (engine.effectIf done job clockNs).2.table := by
    intro done clockNs
    unfold interrupt
    cases engine.computeTask with
    | none => exact .inl ⟨rfl, rfl⟩
    | some job => exact .inr ⟨job, rfl, rfl, rfl⟩
  have hnone : ∀ done clockNs, (engine.interrupt done clockNs).2.computeTask = none := by
    intro done clockNs
    unfold interrupt
    cases htask : engine.computeTask with
    | none => exact htask
    | some job => rfl
  cases action with
  | sessionEnd payload today =>
    refine .inl ⟨rfl, ?_, ?_⟩
    · show (engine.onSessionEnd cfg payload today).table = _
      unfold onSessionEnd
      split_ifs <;> rfl
    · show ∀ job ∈ (engine.onSessionEnd cfg payload today).computeTask, _
      unfold onSessionEnd
      split_ifs
      · exact fun _ h => .inl h
      · rintro _ ⟨⟩
        exact .inr rfl
  | unsubscribed => exact .inl ⟨rfl, rfl, fun _ h => .inl h⟩
  | interrupted done clockNs =>
    have hidle : ∀ job, job ∉ (engine.interrupt done clockNs).2.computeTask := by
      rw [hnone]
      exact fun _ h => by cases h
    rcases hinterrupt done clockNs with ⟨hout, htable⟩ | ⟨job, hjob, hout, htable⟩
    · exact .inl ⟨hout, htable, fun job h => absurd h (hidle job)⟩
    · exact .inr ⟨job, done, clockNs, hjob, hout, htable, fun job' h => absurd h (hidle job')⟩
  | restart done clockNs =>
    have hidle : ∀ job, job ∉ (engine.interrupt done clockNs).2.computeTask := by
      rw [hnone]
      exact fun _ h => by cases h
    rcases hinterrupt done clockNs with ⟨hout, htable⟩ | ⟨job, hjob, hout, htable⟩
    · exact .inl ⟨hout, htable, fun job h => absurd h (hidle job)⟩
    · exact .inr ⟨job, done, clockNs, hjob, hout, htable, fun job' h => absurd h (hidle job')⟩
  | _ =>
    unfold step
    cases htask : engine.computeTask with
    | none => exact .inl ⟨rfl, rfl, fun job h => by rw [htask] at h; cases h⟩
    | some job =>
      dsimp only
      split_ifs with hawaits
      · obtain ⟨done, clockNs, hspec⟩ := hresume job htask hawaits
        exact .inr ⟨job, done, clockNs, rfl, hspec⟩
      · exact .inl ⟨rfl, rfl, fun job' h => .inl (htask ▸ h)⟩

/-! ## Runs -/

/-- The rows that the answers of the provider lead to. -/
def answered (actions : List Action) : List (List PreviousDayMemoryRow) :=
  actions.filterMap fun
    | .inputs (some inputs) clockNs => some (sessionRows inputs clockNs)
    | _ => none

theorem consistent_of_answered {actions : List Action} {rows : List PreviousDayMemoryRow}
    (h : rows ∈ answered actions) {row : PreviousDayMemoryRow} (hrow : row ∈ rows) :
    row.Consistent := by
  obtain ⟨action, -, haction⟩ := List.mem_filterMap.mp h
  split at haction
  · rw [← Option.some.inj haction] at hrow
    exact consistent_of_mem_sessionRows hrow
  · cases haction

/-- What holds of the engine after some actions. -/
structure Inv (actions : List Action) (engine : PrevDayMemoryEngine) : Prop where
  sound : ∀ job ∈ engine.computeTask, job.stage.Sound engine.table
  rows : ∀ job ∈ engine.computeTask, job.stage ≠ .provider →
    job.stage.rows ≠ [] ∧ job.stage.rows ∈ answered actions
  table : ∀ row ∈ engine.table.rows, ∃ rows ∈ answered actions, row ∈ rows

theorem mem_answered_concat {actions : List Action} {rows : List PreviousDayMemoryRow}
    (h : rows ∈ answered actions) (action : Action) : rows ∈ answered (actions ++ [action]) := by
  rw [answered, List.filterMap_append]
  exact List.mem_append_left _ h

theorem Inv.step {actions : List Action} (h : Inv actions engine) (action : Action) :
    Inv (actions ++ [action]) (engine.step cfg action).2 := by
  rcases step_cases cfg engine action with ⟨-, htable, hjobs⟩ |
    ⟨job, done, clockNs, hjob, -, htable, hjobs⟩
  · refine ⟨fun job hmem => ?_, fun job hmem hne => ?_, fun row hrow => ?_⟩
    · rcases hjobs job hmem with hold | hnew
      · rw [htable]
        exact h.sound job hold
      · rw [hnew]
        trivial
    · rcases hjobs job hmem with hold | hnew
      · obtain ⟨hsome, hin⟩ := h.rows job hold hne
        exact ⟨hsome, mem_answered_concat hin action⟩
      · exact absurd hnew hne
    · rw [htable] at hrow
      obtain ⟨rows, hin, hmem⟩ := h.table row hrow
      exact ⟨rows, mem_answered_concat hin action, hmem⟩
  · have hsound := h.sound job hjob
    have hrows := h.rows job hjob
    refine ⟨fun job' hmem => ?_, fun job' hmem hne => ?_, fun row hrow => ?_⟩
    · obtain ⟨hawaits, hnext, houtcome⟩ := hjobs job' hmem
      obtain ⟨rfl, rfl⟩ := Prod.mk.inj houtcome
      rw [htable]
      exact (sound_next hsound (fun hne => (hrows hne).1) hawaits hnext).1
    · obtain ⟨hawaits, hnext, -⟩ := hjobs job' hmem
      obtain ⟨-, hsource, -, hsome⟩ := sound_next hsound (fun hne => (hrows hne).1) hawaits hnext
      refine ⟨hsome, ?_⟩
      rcases hsource with hsame | ⟨inputs, clockNs, rfl, hnew⟩
      · rw [hsame] at hsome ⊢
        have hstage : job.stage ≠ .provider := fun hprovider => hsome (by rw [hprovider]; rfl)
        exact mem_answered_concat (hrows hstage).2 action
      · rw [hnew, answered, List.filterMap_append]
        exact List.mem_append_right _ List.mem_cons_self
    · obtain ⟨batch, hbatch, heffect⟩ := effectIf_spec done engine hsound clockNs
      rw [htable, heffect] at hrow
      rcases Table.mem_of_mem_upsertAll hrow with hmem | hold
      · have hstage : job.stage ≠ .provider := by
          intro hprovider
          have hnil := hbatch row hmem
          rw [hprovider] at hnil
          cases hnil
        exact ⟨_, mem_answered_concat (hrows hstage).2 action, hbatch row hmem⟩
      · obtain ⟨rows, hin, hmem⟩ := h.table row hold
        exact ⟨rows, mem_answered_concat hin action, hmem⟩

theorem inv_after (cfg : PrevDayConfig) (actions : List Action) : Inv actions (after cfg actions) := by
  induction actions using List.reverseRecOn with
  | nil =>
    have hnone : (after cfg []).computeTask = none := rfl
    refine ⟨fun job h => ?_, fun job h => ?_, fun row h => by cases h⟩
    · rw [hnone] at h
      cases h
    · rw [hnone] at h
      cases h
  | append_singleton actions action ih =>
    rw [after, runState_append]
    exact ih.step action

/-- A key that has a row keeps one. -/
theorem isSome_get_step {actions : List Action} (h : Inv actions engine) (action : Action) {k : ℕ × ℤ}
    (hsome : (engine.table.get k).isSome = true) :
    ((engine.step cfg action).2.table.get k).isSome = true := by
  rcases step_cases cfg engine action with ⟨-, htable, -⟩ | ⟨job, done, clockNs, hjob, -, htable, -⟩
  · rwa [htable]
  · obtain ⟨batch, -, heffect⟩ := effectIf_spec done engine (h.sound job hjob) clockNs
    rw [htable, heffect]
    exact Table.isSome_get_upsertAll batch hsome

theorem isSome_get_after (cfg : PrevDayConfig) {pre : List Action} (post : List Action) {k : ℕ × ℤ}
    (hsome : ((after cfg pre).table.get k).isSome = true) :
    ((after cfg (pre ++ post)).table.get k).isSome = true := by
  induction post using List.reverseRecOn with
  | nil => rwa [List.append_nil]
  | append_singleton post action ih =>
    rw [← List.append_assoc, after, runState_append]
    exact isSome_get_step (inv_after cfg (pre ++ post)) action ih

/-- **Nothing is announced before it is stored.** In every run, with failures, cancellations and
restarts at any await: what an action publishes is of the rows of one answer of the provider, all of
them consistent, and for each of them the table then holds the last row of the answer with its key,
and a row for its key ever after. -/
theorem announced_after_stored (cfg : PrevDayConfig) {pre post : List Action} {action : Action}
    {published : Published} (hpublished : published ∈ ((after cfg pre).step cfg action).1) :
    ∃ rows ∈ answered pre, rows ≠ [] ∧ published.Of rows ∧ ∀ row ∈ rows, row.Consistent ∧
      (after cfg pre).table.get row.key = lastWith PreviousDayMemoryRow.key row.key rows ∧
      ((after cfg (pre ++ action :: post)).table.get row.key).isSome = true := by
  have hinv := inv_after cfg pre
  rcases step_cases cfg (after cfg pre) action with ⟨hnone, -⟩ | ⟨job, done, clockNs, hjob, hout, -⟩
  · rw [hnone] at hpublished
    cases hpublished
  have hsound := hinv.sound job hjob
  obtain ⟨hof, hstored⟩ : published.Of job.stage.rows ∧
      Stored (after cfg pre).table job.stage.rows := by
    rw [hout] at hpublished
    unfold effectIf effect at hpublished
    split_ifs at hpublished
    · obtain ⟨date, stage⟩ := job
      dsimp only at hsound hpublished ⊢
      split at hpublished
      · cases hpublished
      · obtain ⟨hstored, -, hleft⟩ := hsound
        rw [List.mem_singleton.mp hpublished]
        exact ⟨⟨_, hleft _ List.mem_cons_self, rfl, rfl⟩, hstored⟩
      · rw [List.mem_singleton.mp hpublished]
        exact ⟨rfl, hsound⟩
      · cases hpublished
    · cases hpublished
  have hstage : job.stage ≠ .provider := by
    intro hprovider
    rw [hout] at hpublished
    unfold effectIf effect at hpublished
    rw [hprovider] at hpublished
    split_ifs at hpublished
    · cases hpublished
    · cases hpublished
  obtain ⟨hsome, hanswer⟩ := hinv.rows job hjob hstage
  refine ⟨_, hanswer, hsome, hof, fun row hrow => ⟨?_, hstored row hrow, ?_⟩⟩
  · exact consistent_of_answered hanswer hrow
  · refine isSome_get_after cfg (action :: post) ?_
    rw [hstored row hrow]
    exact isSome_lastWith_iff.mpr ⟨row, hrow, rfl⟩

/-- The data of a symbol that closed at some price. -/
def relianceSession (sessionDate closePaise : ℤ) : SymbolSessionData :=
  ⟨1, "RELIANCE", sessionDate, closePaise, closePaise, closePaise, closePaise, closePaise, 100, 40,
    [⟨some "swing_high", some closePaise⟩]⟩

/-- The end of a session and the job for it, up to the last announcement. -/
def jobOf (sessionDate closePaise : ℤ) : List Action :=
  [.sessionEnd (some (.obj [("phase", .str "end")])) sessionDate,
    .inputs (some [relianceSession sessionDate closePaise]) 5, .written, .published true 6]

/-- The announcement of one session, after a job for it that was killed while it wrote. -/
theorem announced_after_stored_reliance :
    let cfg : PrevDayConfig := ⟨64, true, false⟩
    let pre := (jobOf 20000 250000).take 2 ++ .restart true 5 :: jobOf 20000 250000
    ∃ rows ∈ answered pre, rows ≠ [] ∧ (Published.ready 20000 1 7).Of rows ∧
      ∀ row ∈ rows, row.Consistent ∧
        (after cfg pre).table.get row.key = lastWith PreviousDayMemoryRow.key row.key rows ∧
        ((after cfg (pre ++ .published true 7 :: [])).table.get row.key).isSome = true :=
  announced_after_stored ⟨64, true, false⟩ (by decide +kernel)

end PrevDayMemoryEngine

end Hedge.Ai.PrevDay
