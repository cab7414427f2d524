import Hedge.Common.Machine
import Mathlib

/-!
# Ladders of quantities

A ladder is an ordered map from keys to quantities, walked from its least key. `topUp` adds to a
level and `consume` takes a quantity level by level, stopping at the first key outside a limit. A
walk over the keys of a ladder conserves every level, leaves no empty one and takes the smaller of
what is asked for and what the limit allows.
-/

namespace Hedge.Common

/-- An ordered map (`BTreeMap`) from keys to quantities. -/
abbrev Ladder (κ : Type*) [Ord κ] := Std.ExtTreeMap κ UInt64 compare

namespace Ladder

/-! ## Fills -/

section Fills

variable {κ : Type*} [DecidableEq κ]

/-- The total of a list of fills. -/
def totalOf (fills : List (κ × UInt64)) : ℕ := (fills.map (·.2.toNat)).sum

/-- What a list of fills takes from a level. -/
def takenAt (fills : List (κ × UInt64)) (k : κ) : ℕ := totalOf (fills.filter (·.1 = k))

omit [DecidableEq κ] in
@[simp] theorem totalOf_cons (fill : κ × UInt64) (fills : List (κ × UInt64)) :
    totalOf (fill :: fills) = fill.2.toNat + totalOf fills := rfl

theorem takenAt_cons (fill : κ × UInt64) (fills : List (κ × UInt64)) (k : κ) :
    takenAt (fill :: fills) k = (if fill.1 = k then fill.2.toNat else 0) + takenAt fills k := by
  by_cases h : fill.1 = k <;> simp [takenAt, h]

theorem takenAt_of_notMem {fills : List (κ × UInt64)} {k : κ} (h : k ∉ fills.map (·.1)) :
    takenAt fills k = 0 := by
  have hnone : fills.filter (·.1 = k) = [] := by
    refine List.filter_eq_nil_iff.mpr fun fill hmem hk => ?_
    exact h (List.mem_map.mpr ⟨fill, hmem, of_decide_eq_true hk⟩)
  rw [takenAt, hnone]
  rfl

end Fills

/-! ## Levels -/

variable {κ : Type*} [Ord κ] [Std.TransOrd κ] [Std.LawfulEqOrd κ] [DecidableEq κ]

/-- The quantity of a level; a level that is not there has none. -/
def qtyAt (m : Ladder κ) (k : κ) : ℕ := (m[k]?.getD (0 : UInt64)).toNat

/-- No level is empty. -/
def NoZero (m : Ladder κ) : Prop := ∀ k : κ, m[k]? ≠ some 0

/-- Add to a level, up to the largest quantity. -/
def topUp (m : Ladder κ) (k : κ) (qty : UInt64) : Ladder κ :=
  if qty = 0 then m else m.insert k ((m[k]?.getD 0).saturatingAdd qty)

/-- Store what is left of a level, and drop the level when nothing is. -/
def restore (m : Ladder κ) (k : κ) (left : UInt64) : Ladder κ :=
  if left = 0 then m.erase k else m.insert k left

/-- Take up to `remaining` from the levels `keys` in turn, up to the first one outside the limit. -/
def consume (within : κ → Bool) : List κ → UInt64 → Ladder κ → List (κ × UInt64) × Ladder κ
  | [], _, m => ([], m)
  | k :: keys, remaining, m =>
    if remaining = 0 then ([], m)
    else if !within k then ([], m)
    else
      let avail := m[k]?.getD 0
      if avail = 0 then consume within keys remaining m
      else
        let take := min avail remaining
        let (fills, m) := consume within keys (remaining - take) (m.restore k (avail - take))
        ((k, take) :: fills, m)

/-- What the limit allows to take. -/
def available (within : κ → Bool) (m : Ladder κ) : ℕ := ((m.keys.filter within).map m.qtyAt).sum

/-! ## One level -/

theorem getElem?_restore (m : Ladder κ) (k k' : κ) (left : UInt64) :
    (m.restore k left)[k']? =
      if k = k' then (if left = 0 then none else some left) else m[k']? := by
  unfold restore
  split
  · rw [Std.ExtTreeMap.getElem?_erase]
    simp only [Std.compare_eq_iff_eq]
  · rw [Std.ExtTreeMap.getElem?_insert]
    simp only [Std.compare_eq_iff_eq]

theorem qtyAt_restore_self (m : Ladder κ) (k : κ) (left : UInt64) :
    (m.restore k left).qtyAt k = left.toNat := by
  rw [qtyAt, getElem?_restore, if_pos rfl]
  split
  next h => rw [h]; rfl
  next => rfl

theorem qtyAt_restore_of_ne (m : Ladder κ) {k k' : κ} (h : k ≠ k') (left : UInt64) :
    (m.restore k left).qtyAt k' = m.qtyAt k' := by
  rw [qtyAt, getElem?_restore, if_neg h, qtyAt]

omit [DecidableEq κ] in
/-- The keys of a ladder with no empty level are those with something left. -/
theorem mem_keys_iff {m : Ladder κ} (h : m.NoZero) {k : κ} : k ∈ m.keys ↔ m.qtyAt k ≠ 0 := by
  rw [Std.ExtTreeMap.mem_keys, Std.ExtTreeMap.mem_iff_isSome_getElem?, qtyAt]
  have hzero := h k
  cases hk : m[k]? with
  | none => simp
  | some qty =>
    rw [hk] at hzero
    have hne : qty ≠ 0 := fun hq => hzero (hq ▸ rfl)
    have hnat : qty.toNat ≠ 0 := fun hq => hne (UInt64.toNat_inj.mp hq)
    simpa using hnat

theorem NoZero.restore {m : Ladder κ} (h : m.NoZero) (k : κ) (left : UInt64) :
    (m.restore k left).NoZero := by
  intro k'
  rw [getElem?_restore]
  split_ifs with hk hleft
  · exact Option.some_ne_none 0 |>.symm
  · exact fun hsome => hleft (Option.some.inj hsome)
  · exact h k'

theorem qtyAt_topUp (m : Ladder κ) (k k' : κ) (qty : UInt64) :
    (m.topUp k qty).qtyAt k'
      = if k = k' then min (m.qtyAt k' + qty.toNat) (2 ^ 64 - 1) else m.qtyAt k' := by
  have hbound : m.qtyAt k' < 2 ^ 64 := UInt64.toNat_lt _
  unfold topUp
  split_ifs with hqty hk hk
  · rw [hqty]
    simp only [UInt64.toNat_zero]
    omega
  · rfl
  · subst hk
    simp [qtyAt]
  · rw [qtyAt, Std.ExtTreeMap.getElem?_insert, if_neg (by simpa using hk), qtyAt]

omit [Std.LawfulEqOrd κ] [DecidableEq κ] in
theorem NoZero.topUp {m : Ladder κ} (h : m.NoZero) (k : κ) (qty : UInt64) :
    (m.topUp k qty).NoZero := by
  intro k'
  unfold Ladder.topUp
  split_ifs with hqty
  · exact h k'
  · rw [Std.ExtTreeMap.getElem?_insert]
    split_ifs
    · intro hsome
      have hzero := congrArg UInt64.toNat (Option.some.inj hsome)
      have hpos : qty.toNat ≠ 0 := fun hq => hqty (UInt64.toNat_inj.mp hq)
      rw [UInt64.toNat_saturatingAdd, UInt64.toNat_zero] at hzero
      omega
    · exact h k'

omit [Std.LawfulEqOrd κ] [DecidableEq κ] in
theorem noZero_empty : (∅ : Ladder κ).NoZero := by
  intro k
  simp

/-! ## A walk over the levels -/

/-- What a walk over the levels `keys` of `m` leaves and takes. -/
structure Walked (within : κ → Bool) (keys : List κ) (requested : UInt64) (m : Ladder κ)
    (fills : List (κ × UInt64)) (m' : Ladder κ) : Prop where
  /-- The fills are of the levels walked over, in their order. -/
  ordered : (fills.map (·.1)).Sublist keys
  limited : ∀ fill ∈ fills, within fill.1 = true
  positive : ∀ fill ∈ fills, fill.2 ≠ 0
  total : totalOf fills = min requested.toNat (((keys.takeWhile within).map m.qtyAt).sum)
  conserved : ∀ k, takenAt fills k + m'.qtyAt k = m.qtyAt k
  /-- A level is taken from when nothing is left of those before it. -/
  exhausted : keys.Pairwise fun k k' => k' ∈ fills.map (·.1) → m'.qtyAt k = 0
  noZero : m.NoZero → m'.NoZero

omit [Std.LawfulEqOrd κ] in
theorem walked_nil (within : κ → Bool) (keys : List κ) (requested : UInt64) (m : Ladder κ)
    (h : min requested.toNat (((keys.takeWhile within).map m.qtyAt).sum) = 0) :
    Walked within keys requested m [] m where
  ordered := List.nil_sublist keys
  limited _ h := by cases h
  positive _ h := by cases h
  total := h.symm
  conserved k := Nat.zero_add _
  exhausted := List.pairwise_of_forall fun _ _ h => (by cases h)
  noZero := id

omit [Std.LawfulEqOrd κ] in
/-- Nothing is taken when nothing is left to take. -/
theorem Walked.fills_eq_nil {within : κ → Bool} {keys : List κ} {requested : UInt64}
    {m m' : Ladder κ} {fills : List (κ × UInt64)} (h : Walked within keys requested m fills m')
    (hzero : requested.toNat = 0) : fills = [] := by
  cases fills with
  | nil => rfl
  | cons fill fills =>
    have htotal := h.total
    have hpos : fill.2.toNat ≠ 0 :=
      fun hq => h.positive fill (by simp) (UInt64.toNat_inj.mp hq)
    rw [hzero, Nat.zero_min, totalOf_cons] at htotal
    omega

omit [Std.LawfulEqOrd κ] in
/-- A walk that passes an empty level. -/
theorem Walked.pass {within : κ → Bool} {k : κ} {keys : List κ} {requested : UInt64}
    {m m' : Ladder κ} {fills : List (κ × UInt64)} (hwithin : within k = true) (hlevel : m.qtyAt k = 0)
    (h : Walked within keys requested m fills m') :
    Walked within (k :: keys) requested m fills m' where
  ordered := h.ordered.cons k
  limited := h.limited
  positive := h.positive
  total := by
    rw [h.total, List.takeWhile_cons_of_pos hwithin, List.map_cons, List.sum_cons, hlevel,
      Nat.zero_add]
  conserved := h.conserved
  exhausted := by
    refine List.pairwise_cons.mpr ⟨fun _ _ _ => ?_, h.exhausted⟩
    have hk := h.conserved k
    omega
  noZero := h.noZero

/-- A walk that takes from a level; the rest of it does not see the level. -/
theorem Walked.take {within : κ → Bool} {k : κ} {keys : List κ} {requested take : UInt64}
    {m m' : Ladder κ} {fills : List (κ × UInt64)} (hwithin : within k = true) (hfresh : k ∉ keys)
    (hpos : take ≠ 0) (htake : take.toNat = min (m.qtyAt k) requested.toNat)
    (h : Walked within keys (requested - take) (m.restore k (m[k]?.getD 0 - take)) fills m') :
    Walked within (k :: keys) requested m ((k, take) :: fills) m' := by
  have hrequest : (requested - take).toNat = requested.toNat - take.toNat :=
    UInt64.toNat_sub_of_le _ _ (UInt64.le_iff_toNat_le.mpr (by omega))
  have hleft : (m.restore k (m[k]?.getD 0 - take)).qtyAt k = m.qtyAt k - take.toNat := by
    have hle : take.toNat ≤ (m[k]?.getD (0 : UInt64)).toNat := htake.trans_le (Nat.min_le_left _ _)
    rw [qtyAt_restore_self]
    exact UInt64.toNat_sub_of_le _ _ (UInt64.le_iff_toNat_le.mpr hle)
  have huntaken : takenAt fills k = 0 :=
    takenAt_of_notMem fun hmem => hfresh (h.ordered.subset hmem)
  have hlevel := h.conserved k
  refine ⟨h.ordered.cons_cons k, ?_, ?_, ?_, fun k' => ?_, ?_, fun hm => h.noZero (hm.restore k _)⟩
  · exact List.forall_mem_cons.mpr ⟨hwithin, h.limited⟩
  · exact List.forall_mem_cons.mpr ⟨hpos, h.positive⟩
  · -- the fill changes no level further on
    have hsame : (keys.takeWhile within).map (m.restore k (m[k]?.getD 0 - take)).qtyAt
        = (keys.takeWhile within).map m.qtyAt := by
      refine List.map_congr_left fun k' hk' => qtyAt_restore_of_ne m ?_ _
      rintro rfl
      exact hfresh (List.takeWhile_subset _ hk')
    rw [totalOf_cons, h.total, hsame, hrequest, List.takeWhile_cons_of_pos hwithin, List.map_cons,
      List.sum_cons]
    dsimp only
    omega
  · rw [takenAt_cons]
    by_cases hk : k = k'
    · subst hk
      rw [if_pos rfl]
      dsimp only
      omega
    · have hother := h.conserved k'
      rw [qtyAt_restore_of_ne m hk] at hother
      rw [if_neg hk, Nat.zero_add]
      exact hother
  · refine List.pairwise_cons.mpr ⟨fun k' hk' hmem => ?_, h.exhausted.imp_of_mem ?_⟩
    · -- Either the whole level was taken, or the request was met by it.
      by_cases hmet : (requested - take).toNat = 0
      · rw [h.fills_eq_nil hmet] at hmem
        have heq : k' = k := List.mem_singleton.mp hmem
        exact absurd (heq ▸ hk') hfresh
      · omega
    · intro k₁ k₂ _ hk₂ hlater hmem
      rcases List.mem_cons.mp hmem with rfl | hmem
      · exact absurd hk₂ hfresh
      · exact hlater hmem

theorem walked_consume (within : κ → Bool) (keys : List κ) (requested : UInt64) (m : Ladder κ)
    (hkeys : keys.Nodup) :
    Walked within keys requested m (consume within keys requested m).1
      (consume within keys requested m).2 := by
  induction keys generalizing requested m with
  | nil => exact walked_nil _ _ _ _ (Nat.min_zero _)
  | cons k keys ih =>
    obtain ⟨hfresh, hkeys⟩ := List.nodup_cons.mp hkeys
    rw [consume]
    dsimp only
    split_ifs with hrequested hwithin havail
    · refine walked_nil _ _ _ _ ?_
      rw [hrequested]
      exact Nat.zero_min _
    · refine walked_nil _ _ _ _ ?_
      rw [List.takeWhile_cons_of_neg (by simpa using hwithin)]
      exact Nat.min_zero _
    · refine (ih requested m hkeys).pass (by simpa using hwithin) ?_
      rw [qtyAt, havail]
      rfl
    · have htake : (min (m[k]?.getD 0) requested).toNat = min (m.qtyAt k) requested.toNat :=
        UInt64.toNat_min ..
      refine (ih _ _ hkeys).take (by simpa using hwithin) hfresh ?_ htake
      intro hzero
      have hqty : m.qtyAt k ≠ 0 := fun h => havail (UInt64.toNat_inj.mp h)
      have hleft : requested.toNat ≠ 0 := fun h => hrequested (UInt64.toNat_inj.mp h)
      rw [hzero, UInt64.toNat_zero] at htake
      omega

/-! ## A walk over the whole ladder -/

omit [DecidableEq κ] in
theorem keys_nodup (m : Ladder κ) : m.keys.Nodup := by
  refine (Std.ExtTreeMap.ordered_keys (t := m)).imp fun {a b} hlt heq => ?_
  rw [heq, Std.compare_self] at hlt
  cases hlt

omit [Std.TransOrd κ] [Std.LawfulEqOrd κ] [DecidableEq κ] in
/-- A limit that stops the walk at the first key outside it allows every key inside it. -/
theorem takeWhile_eq_filter {within : κ → Bool}
    {keys : List κ} (hkeys : keys.Pairwise fun a b => compare a b = .lt)
    (hlimit : ∀ a ∈ keys, ∀ b ∈ keys, compare a b = .lt → within b = true → within a = true) :
    keys.takeWhile within = keys.filter within := by
  induction keys with
  | nil => rfl
  | cons k keys ih =>
    obtain ⟨hfirst, hkeys⟩ := List.pairwise_cons.mp hkeys
    by_cases hwithin : within k = true
    · rw [List.takeWhile_cons_of_pos hwithin, List.filter_cons_of_pos hwithin,
        ih hkeys fun a ha b hb =>
          hlimit a (List.mem_cons_of_mem k ha) b (List.mem_cons_of_mem k hb)]
    · rw [List.takeWhile_cons_of_neg hwithin, List.filter_cons_of_neg hwithin]
      refine (List.filter_eq_nil_iff.mpr fun k' hk' h => hwithin ?_).symm
      exact hlimit k List.mem_cons_self k' (List.mem_cons_of_mem k hk') (hfirst k' hk') h

omit [Std.LawfulEqOrd κ] [DecidableEq κ] in
/-- What holds of two keys of a sorted list in the order they stand holds in their own order. -/
theorem rel_of_sorted {r : κ → κ → Prop} {keys : List κ}
    (hsorted : keys.Pairwise fun a b => compare a b = .lt) (hrel : keys.Pairwise r) {a b : κ}
    (ha : a ∈ keys) (hb : b ∈ keys) (hlt : compare a b = .lt) : r a b := by
  obtain ⟨i, hi, rfl⟩ := List.getElem_of_mem ha
  obtain ⟨j, hj, rfl⟩ := List.getElem_of_mem hb
  rcases lt_trichotomy i j with hij | rfl | hji
  · exact List.pairwise_iff_getElem.mp hrel i j hi hj hij
  · rw [Std.compare_self] at hlt
    cases hlt
  · have hgt := Std.OrientedCmp.gt_of_lt (List.pairwise_iff_getElem.mp hsorted j i hj hi hji)
    rw [hgt] at hlt
    cases hlt

/-- What taking `requested` from the ladder within the limit leaves and takes. -/
structure Consumed (within : κ → Bool) (requested : UInt64) (m : Ladder κ)
    (fills : List (κ × UInt64)) (m' : Ladder κ) : Prop where
  ofLevels : ∀ fill ∈ fills, fill.1 ∈ m.keys
  ordered : fills.Pairwise fun a b => compare a.1 b.1 = .lt
  limited : ∀ fill ∈ fills, within fill.1 = true
  total : totalOf fills = min requested.toNat (m.available within)
  conserved : ∀ k, takenAt fills k + m'.qtyAt k = m.qtyAt k
  exhausted : ∀ fill ∈ fills, ∀ k, compare k fill.1 = .lt → m'.qtyAt k = 0
  noZero : m.NoZero → m'.NoZero

omit [DecidableEq κ] in
theorem qtyAt_of_notMem {m : Ladder κ} {k : κ} (h : k ∉ m.keys) : m.qtyAt k = 0 := by
  rw [Std.ExtTreeMap.mem_keys] at h
  rw [qtyAt, Std.ExtTreeMap.getElem?_eq_none h]
  rfl

theorem consumed_consume {within : κ → Bool} {m : Ladder κ}
    (hlimit : ∀ a ∈ m.keys, ∀ b ∈ m.keys, compare a b = .lt → within b = true → within a = true)
    (requested : UInt64) :
    Consumed within requested m (consume within m.keys requested m).1
      (consume within m.keys requested m).2 := by
  have hwalked := walked_consume within m.keys requested m m.keys_nodup
  have hsorted := Std.ExtTreeMap.ordered_keys (t := m)
  have hlevels : ∀ fill ∈ (consume within m.keys requested m).1, fill.1 ∈ m.keys :=
    fun fill hmem => hwalked.ordered.subset (List.mem_map_of_mem hmem)
  refine ⟨hlevels, List.pairwise_map.mp (hsorted.sublist hwalked.ordered), hwalked.limited, ?_,
    hwalked.conserved, fun fill hmem k hlt => ?_, hwalked.noZero⟩
  · rw [hwalked.total, takeWhile_eq_filter hsorted hlimit, available]
  · by_cases hk : k ∈ m.keys
    · exact rel_of_sorted hsorted hwalked.exhausted hk (hlevels fill hmem) hlt
        (List.mem_map_of_mem hmem)
    · have hnone := hwalked.conserved k
      rw [qtyAt_of_notMem hk] at hnone
      omega

end Ladder

end Hedge.Common
