import Mathlib.Algebra.Order.Group.Nat
import Mathlib.Data.List.Basic
import Mathlib.Order.ConditionallyCompleteLattice.Finset
import Mathlib.Order.Lattice.Nat
import Mathlib.Tactic.Common

/-!
# Limits on how many instants fall into a window

A rule `(len, m)` says of a list of instants that no `len` consecutive units of time hold more than
`m` of them. `Covers rules span cost` says that `span` units of time are the sum of windows of the
rules whose limits add up to `cost`. Rules that hold bound what a covered span holds
(`Covers.atMost`), and they bound nothing else: as long as a cost does not cover a span, there is a
schedule `earliest` within the span that respects every rule (`earliest_add_le`).
-/

namespace Hedge.Common

/-- How many of the instants `ts` fall into the `len` units of time from `lo` on. -/
def countIn (ts : List ℕ) (lo len : ℕ) : ℕ := ts.countP fun t => lo ≤ t ∧ t < lo + len

/-- No `len` consecutive units of time hold more than `m` of the instants `ts`. -/
def AtMost (ts : List ℕ) (len m : ℕ) : Prop := ∀ lo, countIn ts lo len ≤ m

/-- How many of the instants `ts` are less than `len` old at `now`. -/
def recent (ts : List ℕ) (len now : ℕ) : ℕ := ts.countP fun t => now < t + len

/-! ## Windows -/

section Windows

variable {ts : List ℕ} {a b m n : ℕ}

theorem countIn_add (ts : List ℕ) (lo a b : ℕ) :
    countIn ts lo (a + b) = countIn ts lo a + countIn ts (lo + a) b := by
  induction ts with
  | nil => rfl
  | cons t ts ih =>
    simp only [countIn, List.countP_cons, decide_eq_true_eq] at ih ⊢
    rw [ih]
    split_ifs <;> omega

theorem countIn_mono (ts : List ℕ) (lo : ℕ) (h : a ≤ b) : countIn ts lo a ≤ countIn ts lo b := by
  apply List.countP_mono_left
  intro t _ ht
  simp only [decide_eq_true_eq] at ht ⊢
  omega

theorem AtMost.mono (h : AtMost ts a m) (hlen : b ≤ a) (hle : m ≤ n) : AtMost ts b n :=
  fun lo => (countIn_mono ts lo hlen).trans ((h lo).trans hle)

/-- Two windows side by side. -/
theorem AtMost.add (ha : AtMost ts a m) (hb : AtMost ts b n) : AtMost ts (a + b) (m + n) := by
  intro lo
  rw [countIn_add]
  exact Nat.add_le_add (ha lo) (hb (lo + a))

/-- A rule stays kept by an instant at which less than its limit is recent. -/
theorem AtMost.concat {len now : ℕ} (h : AtMost ts len m) (hroom : recent ts len now < m) :
    AtMost (ts ++ [now]) len m := by
  intro lo
  rw [countIn, List.countP_append, List.countP_singleton]
  split_ifs with hin
  · have hrecent : countIn ts lo len ≤ recent ts len now := by
      apply List.countP_mono_left
      intro t _ ht
      simp only [decide_eq_true_eq] at ht hin ⊢
      omega
    exact Nat.succ_le_of_lt (hrecent.trans_lt hroom)
  · exact h lo

/-- The last `n` elements of a sorted list, for a property that later elements keep. -/
theorem countP_drop_of_sorted {ts : List ℕ} (hsorted : ts.Pairwise (· ≤ ·)) {p : ℕ → Bool}
    (hup : ∀ s t, s ≤ t → p s = true → p t = true) (k : ℕ) :
    (ts.drop k).countP p = min (ts.countP p) (ts.length - k) := by
  induction ts generalizing k with
  | nil => simp
  | cons t ts ih =>
    obtain ⟨hle, htail⟩ := List.pairwise_cons.mp hsorted
    cases k with
    | zero =>
      rw [List.drop_zero, Nat.sub_zero, Nat.min_eq_left List.countP_le_length]
    | succ k =>
      rw [List.drop_succ_cons, ih htail, List.length_cons, Nat.add_sub_add_right,
        List.countP_cons]
      split_ifs with ht
      · have hall : ts.countP p = ts.length :=
          List.countP_eq_length.mpr fun s hs => hup t s (hle s hs) ht
        rw [hall]
        omega
      · rfl

end Windows

/-! ## Spans that rules cover -/

/-- `span` units of time are windows of the rules, whose limits add up to `cost`. -/
inductive Covers (rules : Set (ℕ × ℕ)) : ℕ → ℕ → Prop where
  | nil : Covers rules 0 0
  | cons {len m span cost : ℕ} : (len, m) ∈ rules → Covers rules span cost →
      Covers rules (len + span) (m + cost)

/-- Rules that are kept bound what falls into a span that they cover. -/
theorem Covers.atMost {rules : Set (ℕ × ℕ)} {span cost : ℕ} (h : Covers rules span cost)
    {ts : List ℕ} (hrules : ∀ rule ∈ rules, AtMost ts rule.1 rule.2) : AtMost ts span cost := by
  induction h with
  | nil =>
    intro lo
    refine Nat.le_of_eq (List.countP_eq_zero.mpr fun t _ => ?_)
    simp only [decide_eq_true_eq]
    omega
  | cons hrule _ ih => exact (hrules _ hrule).add ih

/-- The greatest span that a cost of at most `i` covers: where entry `i` may be at the earliest. -/
noncomputable def earliest (rules : Set (ℕ × ℕ)) (i : ℕ) : ℕ :=
  sSup {span | ∃ cost ≤ i, Covers rules span cost}

section Schedule

variable {rules : Set (ℕ × ℕ)} {limit bound : ℕ}

theorem earliest_covers (hfit : ∀ span cost, cost ≤ limit → Covers rules span cost → span < bound)
    {i : ℕ} (hi : i ≤ limit) : ∃ cost ≤ i, Covers rules (earliest rules i) cost := by
  have hbdd : BddAbove {span | ∃ cost ≤ i, Covers rules span cost} := by
    refine ⟨bound, ?_⟩
    rintro span ⟨cost, hcost, h⟩
    exact Nat.le_of_lt (hfit span cost (hcost.trans hi) h)
  have hne : {span | ∃ cost ≤ i, Covers rules span cost}.Nonempty :=
    ⟨0, 0, Nat.zero_le i, .nil⟩
  exact Nat.sSup_mem hne hbdd

theorem le_earliest (hfit : ∀ span cost, cost ≤ limit → Covers rules span cost → span < bound)
    {i span cost : ℕ} (hi : i ≤ limit) (hcost : cost ≤ i) (h : Covers rules span cost) :
    span ≤ earliest rules i := by
  refine le_csSup ⟨bound, ?_⟩ ⟨cost, hcost, h⟩
  rintro span' ⟨cost', hcost', h'⟩
  exact Nat.le_of_lt (hfit span' cost' (hcost'.trans hi) h')

/-- As long as the cost `limit` does not cover `bound`, the schedule stays below it. -/
theorem earliest_lt (hfit : ∀ span cost, cost ≤ limit → Covers rules span cost → span < bound)
    {i : ℕ} (hi : i ≤ limit) : earliest rules i < bound := by
  obtain ⟨cost, hcost, h⟩ := earliest_covers hfit hi
  exact hfit _ cost (hcost.trans hi) h

theorem earliest_mono (hfit : ∀ span cost, cost ≤ limit → Covers rules span cost → span < bound)
    {i j : ℕ} (hij : i ≤ j) (hj : j ≤ limit) : earliest rules i ≤ earliest rules j := by
  obtain ⟨cost, hcost, h⟩ := earliest_covers hfit (hij.trans hj)
  exact le_earliest hfit hj (hcost.trans hij) h

/-- The schedule leaves the window of a rule between an entry and the one its limit later. -/
theorem earliest_add_le
    (hfit : ∀ span cost, cost ≤ limit → Covers rules span cost → span < bound)
    {len m i : ℕ} (hrule : (len, m) ∈ rules) (hi : i + m ≤ limit) :
    len + earliest rules i ≤ earliest rules (i + m) := by
  obtain ⟨cost, hcost, h⟩ := earliest_covers hfit ((Nat.le_add_right i m).trans hi)
  exact le_earliest hfit hi (by omega) (.cons hrule h)

/-- The first `n` entries of the schedule. -/
noncomputable def schedule (rules : Set (ℕ × ℕ)) (n : ℕ) : List ℕ :=
  (List.range n).map (earliest rules)

theorem schedule_succ (rules : Set (ℕ × ℕ)) (n : ℕ) :
    schedule rules (n + 1) = schedule rules n ++ [earliest rules n] := by
  rw [schedule, List.range_succ, List.map_append, List.map_singleton]
  rfl

/-- At its entries the schedule has room under every rule. -/
theorem recent_schedule_lt
    (hfit : ∀ span cost, cost ≤ limit → Covers rules span cost → span < bound)
    {len m i : ℕ} (hrule : (len, m) ∈ rules) (hlen : 0 < len) (hi : i ≤ limit) :
    recent (schedule rules i) len (earliest rules i) < m := by
  have hm : 0 < m := by
    by_contra hzero
    have hstuck := earliest_add_le hfit hrule (i := i) (by omega)
    rw [show m = 0 by omega, Nat.add_zero] at hstuck
    omega
  -- entries before `i + 1 - m` are older than the window
  have hsplit : i = (i + 1 - m) + min i (m - 1) := by omega
  have hold : (schedule rules (i + 1 - m)).countP
      (fun t => earliest rules i < t + len) = 0 := by
    refine List.countP_eq_zero.mpr fun t ht => ?_
    obtain ⟨j, hj, rfl⟩ := List.mem_map.mp ht
    have hjm : j + m ≤ i := by
      have := List.mem_range.mp hj
      omega
    have hgap := earliest_add_le hfit hrule (hjm.trans hi)
    have hmono := earliest_mono hfit hjm hi
    simp only [decide_eq_true_eq]
    omega
  have hrange : schedule rules i = schedule rules (i + 1 - m)
      ++ ((List.range (min i (m - 1))).map fun j => i + 1 - m + j).map (earliest rules) := by
    rw [schedule, hsplit, List.range_add, List.map_append, ← hsplit]
    rfl
  rw [recent, hrange, List.countP_append, hold, Nat.zero_add]
  refine List.countP_le_length.trans_lt ?_
  rw [List.length_map, List.length_map, List.length_range]
  omega

/-- What remembers the last `cap` entries finds room, if the schedule respects the limits up to
`cap`. -/
theorem min_recent_schedule_lt
    (hfit : ∀ span cost, cost ≤ limit → Covers rules span cost → span < bound)
    {len m cap i : ℕ} (hrule : m ≤ cap → (len, m) ∈ rules) (hlen : 0 < len) (hi : i ≤ limit) :
    min (recent (schedule rules i) len (earliest rules i)) cap < m := by
  by_cases hle : m ≤ cap
  · have hroom := recent_schedule_lt hfit (hrule hle) hlen hi
    exact (Nat.min_le_left _ _).trans_lt hroom
  · exact (Nat.min_le_right _ _).trans_lt (Nat.lt_of_not_le hle)

end Schedule

end Hedge.Common
