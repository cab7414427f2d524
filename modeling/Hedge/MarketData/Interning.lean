import Hedge.Common.Pool
import Hedge.MarketData.Interner

/-!
# Interning by many tasks

Reference: `hedge-market-data/src/interner.rs`.

A call of `intern` has three sections: it looks the symbol up, it takes a number from the counter,
and it enters the number for the symbol unless there is one by then. Calls that race on a new symbol
each take a number, and the numbers of all but one are lost. An id that was entered is never changed,
so the answers of all calls stand in the map of the end (`Consistent`, `returned_mem`). The counter
does not come around as long as fewer calls are made than there are ids (`Accounted`).
-/

namespace Hedge.MarketData

open Hedge Hedge.Common

/-- `get`. -/
def SymbolInterner.get (i : SymbolInterner) (sym : String) : Option SymbolId := i.map.lookup sym

namespace Interning

/-! ## Model -/

/-- Where a call of `intern` stands. -/
inductive Point where
  | idle
  | lookup (sym : String)
  | fetching (sym : String)
  | inserting (sym : String) (candidate : SymbolId)

/-- The tasks over one interner. -/
abbrev Config := Pool SymbolInterner Point

def Config.new : Config := ⟨.new, fun _ => .idle⟩

/-- Which call starts, or which task moves. -/
inductive Label where
  | start (tid : ℕ) (sym : String)
  | advance (tid : ℕ)

/-- One section of one call, with the symbol and the id if the call returns. -/
def advance (cfg : Config) (tid : ℕ) : Option (String × SymbolId) × Config :=
  match cfg.threads tid with
  | .idle => (none, cfg)
  | .lookup sym => match cfg.shared.map.lookup sym with
    | some existing => (some (sym, existing), cfg.goto tid .idle cfg.shared)
    | none => (none, cfg.goto tid (.fetching sym) cfg.shared)
  | .fetching sym =>
    (none, cfg.goto tid (.inserting sym ⟨cfg.shared.next⟩)
      { cfg.shared with next := cfg.shared.next + 1 })
  | .inserting sym candidate => match cfg.shared.map.lookup sym with
    | some existing => (some (sym, existing), cfg.goto tid .idle cfg.shared)
    | none => (some (sym, candidate), cfg.goto tid .idle
        { cfg.shared with map := cfg.shared.map.insert sym candidate })

/-- One step of a schedule; a task starts a call when it has none. -/
def threadStep (cfg : Config) : Label → Option (String × SymbolId) × Config
  | .start tid sym => match cfg.threads tid with
    | .idle => (none, cfg.goto tid (.lookup sym) cfg.shared)
    | _ => (none, cfg)
  | .advance tid => advance cfg tid

/-- The symbols of the calls that a step starts. -/
def started (cfg : Config) : Label → List String
  | .start tid sym => match cfg.threads tid with
    | .idle => [sym]
    | _ => []
  | .advance _ => []

/-- The tasks after a schedule. -/
def threadRun (schedule : List Label) : Config := runState threadStep .new schedule

/-- The symbols of the calls that a schedule starts. -/
def calls (schedule : List Label) : List String :=
  runCollect threadStep started .new schedule

/-- What the calls return, with their symbols. -/
def returned (schedule : List Label) : List (String × SymbolId) :=
  runCollect threadStep (fun cfg label => (threadStep cfg label).1.toList) .new schedule

/-- A call that runs alone is `intern`. -/
theorem solo_intern (i : SymbolInterner) (sym : String) :
    let alone := [Label.start 0 sym, .advance 0, .advance 0, .advance 0]
    (runState threadStep ⟨i, fun _ => .idle⟩ alone).shared = (i.intern sym).2
      ∧ (runOutputs threadStep ⟨i, fun _ => .idle⟩ alone).filterMap id
        = [(sym, (i.intern sym).1)] := by
  cases hlookup : i.map.lookup sym with
  | none => simp [threadStep, advance, Pool.goto, SymbolInterner.intern, hlookup]
  | some existing => simp [threadStep, advance, Pool.goto, SymbolInterner.intern, hlookup]

/-! ## What a step does -/

/-- The steps of a schedule: the calls they start, what they return and where they lead. -/
inductive Step (cfg : Config) : List String → Option (String × SymbolId) → Config → Prop
  | stay : Step cfg [] none cfg
  | start (tid : ℕ) (sym : String) : cfg.threads tid = .idle →
      Step cfg [sym] none (cfg.goto tid (.lookup sym) cfg.shared)
  | found (tid : ℕ) (sym : String) (existing : SymbolId) :
      cfg.shared.map.lookup sym = some existing →
      Step cfg [] (some (sym, existing)) (cfg.goto tid .idle cfg.shared)
  | missed (tid : ℕ) (sym : String) : cfg.threads tid = .lookup sym →
      Step cfg [] none (cfg.goto tid (.fetching sym) cfg.shared)
  | fetched (tid : ℕ) (sym : String) : cfg.threads tid = .fetching sym →
      Step cfg [] none (cfg.goto tid (.inserting sym ⟨cfg.shared.next⟩)
        { cfg.shared with next := cfg.shared.next + 1 })
  | entered (tid : ℕ) (sym : String) (candidate : SymbolId) :
      cfg.threads tid = .inserting sym candidate → cfg.shared.map.lookup sym = none →
      Step cfg [] (some (sym, candidate)) (cfg.goto tid .idle
        { cfg.shared with map := cfg.shared.map.insert sym candidate })

theorem step_threadStep (cfg : Config) (label : Label) :
    Step cfg (started cfg label) (threadStep cfg label).1 (threadStep cfg label).2 := by
  cases label with
  | start tid sym =>
    cases hpoint : cfg.threads tid with
    | idle => simpa [threadStep, started, hpoint] using Step.start tid sym hpoint
    | lookup => simpa [threadStep, started, hpoint] using Step.stay
    | fetching => simpa [threadStep, started, hpoint] using Step.stay
    | inserting => simpa [threadStep, started, hpoint] using Step.stay
  | advance tid =>
    cases hpoint : cfg.threads tid with
    | idle => simpa [threadStep, started, advance, hpoint] using Step.stay
    | lookup sym =>
      cases hlookup : cfg.shared.map.lookup sym with
      | some existing =>
        simpa [threadStep, started, advance, hpoint, hlookup] using
          Step.found tid sym existing hlookup
      | none =>
        simpa [threadStep, started, advance, hpoint, hlookup] using Step.missed tid sym hpoint
    | fetching sym =>
      simpa [threadStep, started, advance, hpoint] using Step.fetched tid sym hpoint
    | inserting sym candidate =>
      cases hlookup : cfg.shared.map.lookup sym with
      | some existing =>
        simpa [threadStep, started, advance, hpoint, hlookup] using
          Step.found tid sym existing hlookup
      | none =>
        simpa [threadStep, started, advance, hpoint, hlookup] using
          Step.entered tid sym candidate hpoint hlookup

/-- An id that was entered stays. -/
theorem Step.lookup_mono {cfg next : Config} {new : List String} {out : Option (String × SymbolId)}
    (h : Step cfg new out next) {sym : String} {id : SymbolId}
    (hmem : cfg.shared.map.lookup sym = some id) : next.shared.map.lookup sym = some id := by
  cases h with
  | entered tid sym' candidate hpoint hnone =>
    have hne : sym ≠ sym' := by
      rintro rfl
      rw [hmem] at hnone
      cases hnone
    rw [Pool.shared_goto, AList.lookup_insert_ne hne]
    exact hmem
  | _ => exact hmem

/-- What a call returns stands in the map. -/
theorem Step.lookup_of_returned {cfg next : Config} {new : List String} {sym : String}
    {id : SymbolId} (h : Step cfg new (some (sym, id)) next) :
    next.shared.map.lookup sym = some id := by
  cases h with
  | found tid _ _ hlookup => exact hlookup
  | entered tid => exact AList.lookup_insert _

/-! ## The counter -/

/-- A call that has still to take its number. -/
def Point.pending : Point → ℕ
  | .lookup _ => 1
  | .fetching _ => 1
  | _ => 0

/-- The numbers taken, and those still to be taken, belong to as many calls. -/
def Accounted (made : ℕ) (cfg : Config) : Prop :=
  ∃ pending, cfg.Total Point.pending pending ∧ cfg.shared.next.toNat + pending ≤ made + 1

theorem Accounted.next_le {made : ℕ} {cfg : Config} (h : Accounted made cfg) (tid : ℕ) :
    cfg.shared.next.toNat + (cfg.threads tid).pending ≤ made + 1 := by
  obtain ⟨pending, htotal, hle⟩ := h
  obtain ⟨others, rfl, -⟩ := htotal.goto tid
  omega

/-- A task that moves on takes at most what it had still to take. -/
theorem Accounted.goto {made made' : ℕ} {cfg : Config} (h : Accounted made cfg) {tid : ℕ}
    {next : Point} {shared : SymbolInterner}
    (hmoved : shared.next.toNat + next.pending + made
      ≤ cfg.shared.next.toNat + (cfg.threads tid).pending + made') :
    Accounted made' (cfg.goto tid next shared) := by
  obtain ⟨pending, htotal, hle⟩ := h
  obtain ⟨others, rfl, hgoto⟩ := htotal.goto tid
  refine ⟨others + next.pending, hgoto next shared, ?_⟩
  rw [Pool.shared_goto]
  omega

/-- The counter does not come around while fewer calls were made than there are ids. -/
theorem Accounted.toNat_next_succ {made : ℕ} {cfg : Config} (h : Accounted made cfg)
    (hroom : made + 1 < 2 ^ 32) {tid : ℕ} {sym : String}
    (hpoint : cfg.threads tid = .fetching sym) :
    (cfg.shared.next + 1).toNat = cfg.shared.next.toNat + 1 := by
  have hnext := h.next_le tid
  rw [hpoint, Point.pending] at hnext
  rw [UInt32.toNat_add, UInt32.toNat_one]
  exact Nat.mod_eq_of_lt (by omega)

theorem Accounted.step {made : ℕ} {cfg next : Config} {new : List String}
    {out : Option (String × SymbolId)} (h : Accounted made cfg) (hroom : made + 1 < 2 ^ 32)
    (hstep : Step cfg new out next) : Accounted (made + new.length) next := by
  cases hstep with
  | stay => exact h
  | start tid sym hpoint =>
    refine h.goto ?_
    rw [hpoint]
    exact Nat.le_of_eq (by simp only [Point.pending, List.length_singleton]; omega)
  | found tid sym existing hlookup =>
    refine h.goto ?_
    simp only [Point.pending, List.length_nil]
    omega
  | missed tid sym hpoint =>
    refine h.goto ?_
    rw [hpoint]
    exact Nat.le_refl _
  | fetched tid sym hpoint =>
    refine h.goto ?_
    rw [hpoint, h.toNat_next_succ hroom hpoint]
    simp only [Point.pending, List.length_nil]
    omega
  | entered tid sym candidate hpoint hnone =>
    refine h.goto ?_
    simp only [Point.pending, List.length_nil]
    omega

/-! ## The ids -/

/-- The ids in the map and the candidates of the tasks are numbers below the counter, each of one
symbol or one task. -/
structure Consistent (cfg : Config) : Prop where
  next_pos : 0 < cfg.shared.next.toNat
  mapped : ∀ sym id, cfg.shared.map.lookup sym = some id →
    0 < id.raw.toNat ∧ id.raw.toNat < cfg.shared.next.toNat
  injective : ∀ sym sym' id, cfg.shared.map.lookup sym = some id →
    cfg.shared.map.lookup sym' = some id → sym = sym'
  candidate : ∀ tid sym id, cfg.threads tid = .inserting sym id →
    0 < id.raw.toNat ∧ id.raw.toNat < cfg.shared.next.toNat ∧
      ∀ sym', cfg.shared.map.lookup sym' ≠ some id
  distinct : ∀ tid tid' sym sym' id, cfg.threads tid = .inserting sym id →
    cfg.threads tid' = .inserting sym' id → tid = tid'

theorem consistent_new : Consistent Config.new where
  next_pos := Nat.one_pos
  mapped _ _ h := by cases h
  injective _ _ _ h := by cases h
  candidate _ _ _ h := by cases h
  distinct _ _ _ _ _ h := by cases h

/-- A task that moves without a candidate, over the same interner. -/
theorem Consistent.goto {cfg : Config} (h : Consistent cfg) (tid : ℕ) {next : Point}
    (hnext : ∀ sym id, next ≠ .inserting sym id) : Consistent (cfg.goto tid next cfg.shared) where
  next_pos := h.next_pos
  mapped := h.mapped
  injective := h.injective
  candidate t sym id ht := by
    rcases Pool.threads_goto_eq ht with ⟨-, hpoint⟩ | ⟨-, hpoint⟩
    · exact absurd hpoint (hnext sym id)
    · exact h.candidate t sym id hpoint
  distinct t t' sym sym' id ht ht' := by
    rcases Pool.threads_goto_eq ht with ⟨-, hpoint⟩ | ⟨-, hpoint⟩
    · exact absurd hpoint (hnext sym id)
    · rcases Pool.threads_goto_eq ht' with ⟨-, hpoint'⟩ | ⟨-, hpoint'⟩
      · exact absurd hpoint' (hnext sym' id)
      · exact h.distinct t t' sym sym' id hpoint hpoint'

/-- A number from the counter is a new candidate. -/
theorem Consistent.fetch {cfg : Config} (h : Consistent cfg) (tid : ℕ) (sym : String)
    (hroom : (cfg.shared.next + 1).toNat = cfg.shared.next.toNat + 1) :
    Consistent (cfg.goto tid (.inserting sym ⟨cfg.shared.next⟩)
      { cfg.shared with next := cfg.shared.next + 1 }) where
  next_pos := by
    rw [Pool.shared_goto, hroom]
    exact Nat.succ_pos _
  mapped sym' id hmem := by
    obtain ⟨hpos, hlt⟩ := h.mapped sym' id hmem
    rw [Pool.shared_goto, hroom]
    exact ⟨hpos, Nat.lt_succ_of_lt hlt⟩
  injective := h.injective
  candidate t sym' id ht := by
    rw [Pool.shared_goto, hroom]
    rcases Pool.threads_goto_eq ht with ⟨-, hpoint⟩ | ⟨-, hpoint⟩
    · cases hpoint
      exact ⟨h.next_pos, Nat.lt_succ_self _, fun sym'' hmem =>
        absurd (h.mapped sym'' _ hmem).2 (Nat.lt_irrefl _)⟩
    · obtain ⟨hpos, hlt, hfree⟩ := h.candidate t sym' id hpoint
      exact ⟨hpos, Nat.lt_succ_of_lt hlt, hfree⟩
  distinct t t' sym₁ sym₂ id ht ht' := by
    -- The candidates of the others are below the counter.
    have hbelow : ∀ t sym', cfg.threads t ≠ .inserting sym' ⟨cfg.shared.next⟩ := fun t sym' hpoint =>
      absurd (h.candidate t sym' _ hpoint).2.1 (Nat.lt_irrefl _)
    rcases Pool.threads_goto_eq ht with ⟨rfl, hpoint⟩ | ⟨-, hpoint⟩ <;>
      rcases Pool.threads_goto_eq ht' with ⟨rfl, hpoint'⟩ | ⟨-, hpoint'⟩
    · rfl
    · cases hpoint
      exact absurd hpoint' (hbelow t' sym₂)
    · cases hpoint'
      exact absurd hpoint (hbelow t sym₁)
    · exact h.distinct t t' sym₁ sym₂ id hpoint hpoint'

/-- A candidate that is entered is no longer one. -/
theorem Consistent.enter {cfg : Config} (h : Consistent cfg) {tid : ℕ} {sym : String}
    {candidate : SymbolId} (hpoint : cfg.threads tid = .inserting sym candidate) :
    Consistent (cfg.goto tid .idle
      { cfg.shared with map := cfg.shared.map.insert sym candidate }) := by
  obtain ⟨hpos, hlt, hfree⟩ := h.candidate tid sym candidate hpoint
  have hlookup : ∀ sym' id, (cfg.shared.map.insert sym candidate).lookup sym' = some id →
      (sym' = sym ∧ id = candidate) ∨ (sym' ≠ sym ∧ cfg.shared.map.lookup sym' = some id) := by
    intro sym' id hmem
    by_cases hsym : sym' = sym
    · subst hsym
      rw [AList.lookup_insert] at hmem
      exact .inl ⟨rfl, (Option.some_inj.mp hmem).symm⟩
    · rw [AList.lookup_insert_ne hsym] at hmem
      exact .inr ⟨hsym, hmem⟩
  have hother : ∀ t sym' id,
      (cfg.goto tid .idle { cfg.shared with map := cfg.shared.map.insert sym candidate }).threads t
        = .inserting sym' id → t ≠ tid ∧ cfg.threads t = .inserting sym' id := by
    intro t sym' id ht
    rcases Pool.threads_goto_eq ht with ⟨-, hidle⟩ | hold
    · cases hidle
    · exact hold
  refine ⟨h.next_pos, fun sym' id hmem => ?_, fun sym₁ sym₂ id h₁ h₂ => ?_, fun t sym' id ht => ?_,
    fun t t' sym₁ sym₂ id ht ht' => h.distinct t t' sym₁ sym₂ id (hother t sym₁ id ht).2
      (hother t' sym₂ id ht').2⟩
  · rcases hlookup sym' id hmem with ⟨-, rfl⟩ | ⟨-, hold⟩
    · exact ⟨hpos, hlt⟩
    · exact h.mapped sym' id hold
  · rcases hlookup sym₁ id h₁ with ⟨rfl, rfl⟩ | ⟨-, hold₁⟩ <;>
      rcases hlookup sym₂ _ h₂ with ⟨rfl, hid⟩ | ⟨-, hold₂⟩
    · rfl
    · exact absurd hold₂ (hfree sym₂)
    · exact absurd (hid ▸ hold₁) (hfree sym₁)
    · exact h.injective sym₁ sym₂ id hold₁ hold₂
  · obtain ⟨hne, hold⟩ := hother t sym' id ht
    obtain ⟨hpos', hlt', hfree'⟩ := h.candidate t sym' id hold
    refine ⟨hpos', hlt', fun sym'' hmem => ?_⟩
    rcases hlookup sym'' id hmem with ⟨-, rfl⟩ | ⟨-, hold'⟩
    · exact hne (h.distinct t tid sym' sym id hold hpoint)
    · exact hfree' sym'' hold'

theorem Consistent.step {made : ℕ} {cfg next : Config} {new : List String}
    {out : Option (String × SymbolId)} (h : Consistent cfg) (hcount : Accounted made cfg)
    (hroom : made + 1 < 2 ^ 32) (hstep : Step cfg new out next) : Consistent next := by
  cases hstep with
  | stay => exact h
  | start tid sym hpoint => exact h.goto tid (by simp)
  | found tid sym existing hlookup => exact h.goto tid (by simp)
  | missed tid sym hpoint => exact h.goto tid (by simp)
  | fetched tid sym hpoint => exact h.fetch tid sym (hcount.toNat_next_succ hroom hpoint)
  | entered tid sym candidate hpoint hnone => exact h.enter hpoint

/-! ## Schedules -/

@[simp] theorem threadRun_concat (schedule : List Label) (label : Label) :
    threadRun (schedule ++ [label]) = (threadStep (threadRun schedule) label).2 :=
  runState_append _ _ _

theorem calls_concat (schedule : List Label) (label : Label) :
    calls (schedule ++ [label]) = calls schedule ++ started (threadRun schedule) label :=
  runCollect_concat _ _ _

theorem returned_concat (schedule : List Label) (label : Label) :
    returned (schedule ++ [label]) =
      returned schedule ++ (threadStep (threadRun schedule) label).1.toList :=
  runCollect_concat _ _ _

theorem consistent_threadRun (schedule : List Label) (h : (calls schedule).length + 1 < 2 ^ 32) :
    Consistent (threadRun schedule) ∧ Accounted (calls schedule).length (threadRun schedule) := by
  induction schedule using List.reverseRecOn with
  | nil => exact ⟨consistent_new, 0, Pool.total_zero fun _ => rfl, Nat.le_refl 1⟩
  | append_singleton schedule label ih =>
    rw [calls_concat, List.length_append] at h ⊢
    have hroom : (calls schedule).length + 1 < 2 ^ 32 := by omega
    obtain ⟨hconsistent, hcount⟩ := ih hroom
    have hstep := step_threadStep (threadRun schedule) label
    rw [threadRun_concat]
    exact ⟨hconsistent.step hcount hroom hstep, hcount.step hroom hstep⟩

/-- What was returned stands in the map. -/
theorem returned_mem (schedule : List Label) {sym : String} {id : SymbolId}
    (h : (sym, id) ∈ returned schedule) : (threadRun schedule).shared.get sym = some id := by
  induction schedule using List.reverseRecOn with
  | nil => exact absurd h List.not_mem_nil
  | append_singleton schedule label ih =>
    have hstep := step_threadStep (threadRun schedule) label
    rw [returned_concat] at h
    rw [threadRun_concat]
    rcases List.mem_append.mp h with hold | hnew
    · exact hstep.lookup_mono (ih hold)
    · rw [Option.mem_toList] at hnew
      rw [hnew] at hstep
      exact hstep.lookup_of_returned

/-- What the map has at some time it has from then on. -/
theorem get_mono (earlier later : List Label) {sym : String} {id : SymbolId}
    (h : (threadRun earlier).shared.get sym = some id) :
    (threadRun (earlier ++ later)).shared.get sym = some id := by
  induction later using List.reverseRecOn with
  | nil => rwa [List.append_nil]
  | append_singleton later label ih =>
    rw [← List.append_assoc, threadRun_concat]
    exact (step_threadStep _ label).lookup_mono ih

/-- In any schedule of fewer calls than there are ids, calls return the same id for the same symbol
and only then, no call returns zero, and `get` agrees with the calls at every time. -/
theorem intern_consistent (schedule : List Label) (h : (calls schedule).length < 2 ^ 32 - 1) :
    (∀ sym id sym' id', (sym, id) ∈ returned schedule → (sym', id') ∈ returned schedule →
        (sym = sym' ↔ id = id'))
      ∧ (∀ sym id, (sym, id) ∈ returned schedule → id ≠ ⟨0⟩)
      ∧ ∀ earlier later, schedule = earlier ++ later → ∀ sym id,
          ((sym, id) ∈ returned earlier → (threadRun earlier).shared.get sym = some id) ∧
          ((threadRun earlier).shared.get sym = some id →
            ∀ id', (sym, id') ∈ returned schedule → id' = id) := by
  obtain ⟨hconsistent, -⟩ := consistent_threadRun schedule (by omega)
  refine ⟨fun sym id sym' id' hid hid' => ⟨?same, ?injective⟩, fun sym id hid => ?nonzero,
    fun earlier later hsplit sym id => ⟨returned_mem earlier, fun hget id' hid' => ?agrees⟩⟩
  case same =>
    rintro rfl
    have hboth := (returned_mem schedule hid).symm.trans (returned_mem schedule hid')
    exact Option.some_inj.mp hboth
  case injective =>
    rintro rfl
    exact hconsistent.injective sym sym' id (returned_mem schedule hid) (returned_mem schedule hid')
  case nonzero =>
    rintro rfl
    exact absurd (hconsistent.mapped sym _ (returned_mem schedule hid)).1 (Nat.lt_irrefl 0)
  case agrees =>
    have hlater := get_mono earlier later hget
    rw [← hsplit, returned_mem schedule hid'] at hlater
    exact Option.some_inj.mp hlater

/-- Two tasks race on a symbol: both take a number, and both return the one that was entered
first. -/
def race : List Label :=
  [.start 0 "TCS", .start 1 "TCS", .advance 0, .advance 1, .advance 0, .advance 1, .advance 1,
    .advance 0]

theorem intern_consistent_race :
    returned race = [("TCS", ⟨2⟩), ("TCS", ⟨2⟩)] ∧ (threadRun race).shared.get "TCS" = some ⟨2⟩ := by
  have hreturned : returned race = [("TCS", ⟨2⟩), ("TCS", ⟨2⟩)] := by decide
  obtain ⟨-, -, hget⟩ := intern_consistent race (by decide)
  exact ⟨hreturned, (hget race [] rfl "TCS" ⟨2⟩).1 (by rw [hreturned]; simp)⟩

end Interning

end Hedge.MarketData
