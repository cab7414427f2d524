import Hedge.Common.Run
import Mathlib.Algebra.BigOperators.Group.Finset.Basic
import Mathlib.Logic.Function.Basic

/-!
# Threads over a shared state

A pool is a shared state of type `σ` and threads, each at a point of type `τ` of its call. An atomic
section moves one thread and the shared state together; a schedule of a pool is a run whose actions
name the thread that moves.
-/

namespace Hedge.Common

/-- A shared state and the point every thread stands at. -/
structure Pool (σ τ : Type*) where
  shared : σ
  threads : ℕ → τ

namespace Pool

variable {σ τ : Type*}

/-- Leave a section: the thread goes to `next`, the shared state to `shared`. -/
def goto (pool : Pool σ τ) (tid : ℕ) (next : τ) (shared : σ) : Pool σ τ where
  shared := shared
  threads := Function.update pool.threads tid next

@[simp] theorem shared_goto (pool : Pool σ τ) (tid : ℕ) (next : τ) (shared : σ) :
    (pool.goto tid next shared).shared = shared := rfl

@[simp] theorem threads_goto_self (pool : Pool σ τ) (tid : ℕ) (next : τ) (shared : σ) :
    (pool.goto tid next shared).threads tid = next :=
  Function.update_self ..

theorem threads_goto_of_ne (pool : Pool σ τ) {tid tid' : ℕ} (h : tid' ≠ tid) (next : τ)
    (shared : σ) : (pool.goto tid next shared).threads tid' = pool.threads tid' :=
  Function.update_of_ne h ..

/-- A point of the new pool is that of the thread that moved, or was there before. -/
theorem threads_goto_eq {pool : Pool σ τ} {tid t : ℕ} {next point : τ} {shared : σ}
    (h : (pool.goto tid next shared).threads t = point) :
    (t = tid ∧ next = point) ∨ (t ≠ tid ∧ pool.threads t = point) := by
  by_cases ht : t = tid
  · subst ht
    rw [threads_goto_self] at h
    exact .inl ⟨rfl, h⟩
  · rw [threads_goto_of_ne pool ht] at h
    exact .inr ⟨ht, h⟩

/-- A later section of the same thread replaces the point it stood at. -/
@[simp] theorem goto_goto (pool : Pool σ τ) (tid : ℕ) (next next' : τ) (shared shared' : σ) :
    (pool.goto tid next shared).goto tid next' shared' = pool.goto tid next' shared' := by
  simp [goto]

/-- What held of every thread and holds of the new point holds of every thread. -/
theorem forall_threads_goto {P : ℕ → τ → Prop} {pool : Pool σ τ} {tid : ℕ} {next : τ} {shared : σ}
    (h : ∀ t, t ≠ tid → P t (pool.threads t)) (hnext : P tid next) :
    ∀ t, P t ((pool.goto tid next shared).threads t) := by
  intro t
  by_cases ht : t = tid
  · subst ht
    rw [threads_goto_self]
    exact hnext
  · rw [threads_goto_of_ne pool ht]
    exact h t ht

/-! ## What the threads hold

Each point of a call weighs something, most of them nothing. -/

section Total

variable {M : Type*} [AddCommMonoid M] {w : τ → M}

/-- All threads together weigh `total`. -/
def Total (w : τ → M) (pool : Pool σ τ) (total : M) : Prop :=
  ∃ tids : Finset ℕ, (∀ tid ∉ tids, w (pool.threads tid) = 0) ∧
    ∑ tid ∈ tids, w (pool.threads tid) = total

theorem total_zero {pool : Pool σ τ} (h : ∀ tid, w (pool.threads tid) = 0) : pool.Total w 0 :=
  ⟨∅, fun tid _ => h tid, Finset.sum_empty⟩

/-- When a thread moves, the weight of the others stays. -/
theorem Total.goto {pool : Pool σ τ} {total : M} (h : pool.Total w total) (tid : ℕ) :
    ∃ others, total = others + w (pool.threads tid) ∧
      ∀ next shared, (pool.goto tid next shared).Total w (others + w next) := by
  obtain ⟨tids, hout, rfl⟩ := h
  have hothers : ∀ next shared, ∑ t ∈ tids.erase tid, w ((pool.goto tid next shared).threads t)
      = ∑ t ∈ tids.erase tid, w (pool.threads t) := by
    intro next shared
    refine Finset.sum_congr rfl fun t ht => ?_
    rw [threads_goto_of_ne pool (Finset.ne_of_mem_erase ht)]
  refine ⟨∑ t ∈ tids.erase tid, w (pool.threads t), ?_, fun next shared =>
    ⟨insert tid (tids.erase tid), fun t ht => ?_, ?_⟩⟩
  · by_cases hmem : tid ∈ tids
    · exact (Finset.sum_erase_add _ _ hmem).symm
    · rw [Finset.erase_eq_of_notMem hmem, hout tid hmem, add_zero]
  · obtain ⟨hne, hnotin⟩ := not_or.mp (mt Finset.mem_insert.mpr ht)
    rw [threads_goto_of_ne pool hne]
    exact hout t fun hmem => hnotin (Finset.mem_erase.mpr ⟨hne, hmem⟩)
  · rw [Finset.sum_insert (Finset.notMem_erase tid tids), threads_goto_self, hothers, add_comm]

/-- What is held by some thread is part of the total, and nothing else is. -/
theorem Total.mem_iff {α : Type*} {held : τ → Multiset α} {pool : Pool σ τ} {total : Multiset α}
    (h : pool.Total held total) {a : α} : a ∈ total ↔ ∃ tid, a ∈ held (pool.threads tid) := by
  obtain ⟨tids, hout, rfl⟩ := h
  rw [Multiset.mem_sum]
  constructor
  · rintro ⟨tid, -, ha⟩
    exact ⟨tid, ha⟩
  · rintro ⟨tid, ha⟩
    refine ⟨tid, ?_, ha⟩
    by_contra hmem
    rw [hout tid hmem] at ha
    exact Multiset.notMem_zero a ha

end Total

end Pool

end Hedge.Common
