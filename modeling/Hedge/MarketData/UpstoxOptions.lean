import Hedge.Common.Selection
import Hedge.MarketData.UpstoxFeed

/-!
# The option ladders of the Upstox bridge

Reference: `run_oi_loop`, `resolve_expiry`, `discover_nearest_expiry` and `publish_oi` in
`hedge-market-data/src/bin/upstox_feed.rs`.

A ladder is for an expiry that some response listed as the nearest one, and that the day of the
ladder is not past; its strikes are those nearest the spot. Days are compared as texts.
-/

namespace Hedge.MarketData.Upstox

open Hedge Hedge.Common

/-! ## Expiries -/

/-- The expiries that a reply to the contracts request lists. -/
def listed (contracts : Reply) : List String :=
  match contracts with
  | .ok body => ((dataArray body).map listedExpiries).getD []
  | .error _ => []

/-- The expiries listed that a day is not past. -/
def current (contracts : Reply) (today : String) : Set String :=
  {e | e ∈ listed contracts ∧ today ≤ e}

/-- What is discovered is the nearest expiry listed. -/
theorem discoverNearestExpiry_eq_ok_iff {contracts : Reply} {today expiry : String} :
    discoverNearestExpiry contracts today = .ok expiry ↔ IsLeast (current contracts today) expiry := by
  have hempty : ∀ e, ¬IsLeast {x : String | x ∈ ([] : List String) ∧ today ≤ x} e :=
    fun e h => absurd h.1.1 List.not_mem_nil
  cases contracts with
  | error e => exact iff_of_false (fun h => by cases h) (hempty expiry)
  | ok body =>
    rw [discoverNearestExpiry, Except.bind]
    cases hdata : dataArray body with
    | none =>
      have hnone : current (.ok body) today = {x : String | x ∈ ([] : List String) ∧ today ≤ x} := by
        simp only [current, listed, hdata, Option.map_none, Option.getD_none]
      rw [hnone]
      exact iff_of_false (fun h => by cases h) (hempty expiry)
    | some data =>
      have hcurrent : current (.ok body) today
          = {x | x ∈ (listedExpiries data).filter fun e => today ≤ e} := by
        ext x
        simp [current, listed, hdata]
      have hsort : (fun a b : String => decide (a ≤ b)) = byKey id := rfl
      rw [hcurrent, ← head?_mergeSort_eq_some_iff, ← hsort, ← head?_destutter (· ≠ ·)]
      dsimp only
      cases ((((listedExpiries data).filter fun e => today ≤ e).mergeSort
        fun a b => a ≤ b).destutter (· ≠ ·)).head? with
      | none => exact iff_of_false (fun h => by cases h) (fun h => by cases h)
      | some first => rw [Except.ok.injEq, Option.some.injEq]

/-- An expiry is resolved from the cache if the day is not past the one there, and else discovered
and cached. -/
theorem resolveExpiry_cases {underlying today : String} {contracts : Reply}
    {cache cache' : Map String String} {expiry : String}
    (h : resolveExpiry underlying today contracts cache = .ok (expiry, cache')) :
    today ≤ expiry ∧
      ((cache.lookup underlying = some expiry ∧ cache' = cache) ∨
        (IsLeast (current contracts today) expiry ∧ cache' = cache.insert underlying expiry)) := by
  rw [resolveExpiry] at h
  cases hcached : (cache.lookup underlying).filter fun cached => today ≤ cached with
  | some cached =>
    rw [hcached] at h
    cases h
    obtain ⟨hlookup, hfresh⟩ := Option.filter_eq_some_iff.mp hcached
    exact ⟨of_decide_eq_true hfresh, .inl ⟨hlookup, rfl⟩⟩
  | none =>
    rw [hcached] at h
    cases hfound : discoverNearestExpiry contracts today with
    | error e =>
      rw [hfound] at h
      cases h
    | ok found =>
      rw [hfound] at h
      cases h
      have hleast := discoverNearestExpiry_eq_ok_iff.mp hfound
      exact ⟨hleast.1.2, .inr ⟨hleast, rfl⟩⟩

/-- A visit leaves the entry of another underlying, and any entry it leaves for its own was there or
has been discovered. -/
theorem lookup_oiVisit {cache : Map String String} {visit : OiVisit} {underlying expiry : String}
    (h : (oiVisit cache visit).2.lookup underlying = some expiry) :
    cache.lookup underlying = some expiry ∨
      (visit.underlying = underlying ∧ IsLeast (current visit.contracts visit.today) expiry) := by
  unfold oiVisit at h
  cases hresolve : resolveExpiry visit.underlying visit.today visit.contracts cache with
  | error e =>
    rw [hresolve] at h
    exact .inl h
  | ok resolved =>
    obtain ⟨found, cache'⟩ := resolved
    rw [hresolve] at h
    have hafter : cache'.lookup underlying = some expiry := by
      cases hchain : fetchOptionChain visit.chain with
      | ok chain =>
        rw [hchain] at h
        exact h
      | error e =>
        rw [hchain] at h
        dsimp only at h
        by_cases hsame : underlying = visit.underlying
        · rw [hsame, AList.lookup_erase] at h
          cases h
        · rwa [AList.lookup_erase_ne hsame] at h
    rcases (resolveExpiry_cases hresolve).2 with ⟨_, rfl⟩ | ⟨hleast, rfl⟩
    · exact .inl hafter
    · by_cases hsame : underlying = visit.underlying
      · rw [hsame, AList.lookup_insert, Option.some.injEq] at hafter
        rw [← hafter]
        exact .inr ⟨hsame.symm, hleast⟩
      · rw [AList.lookup_insert_ne hsame] at hafter
        exact .inl hafter

/-- A ladder is for the expiry that the visit resolved. -/
theorem resolveExpiry_of_ladder {cache : Map String String} {visit : OiVisit} {ladder : Ladder}
    (h : (oiVisit cache visit).1 = some ladder) :
    ∃ cache', resolveExpiry visit.underlying visit.today visit.contracts cache
      = .ok (ladder.expiry, cache') := by
  unfold oiVisit at h
  cases hresolve : resolveExpiry visit.underlying visit.today visit.contracts cache with
  | error e =>
    rw [hresolve] at h
    cases h
  | ok resolved =>
    obtain ⟨expiry, cache'⟩ := resolved
    rw [hresolve] at h
    cases hchain : fetchOptionChain visit.chain with
    | error e =>
      rw [hchain] at h
      cases h
    | ok chain =>
      rw [hchain] at h
      dsimp only [publishOi] at h
      split_ifs at h
      cases h
      exact ⟨cache', rfl⟩

/-- A cached expiry was discovered at an earlier visit of its underlying. -/
theorem exists_discovery (visits : List OiVisit) {underlying expiry : String}
    (h : (runState oiVisit ∅ visits).lookup underlying = some expiry) :
    ∃ visit ∈ visits, visit.underlying = underlying ∧
      IsLeast (current visit.contracts visit.today) expiry := by
  induction visits using List.reverseRecOn with
  | nil => cases h
  | append_singleton visits visit ih =>
    rw [runState_append, runState_cons, runState_nil] at h
    rcases lookup_oiVisit h with hbefore | ⟨hsame, hleast⟩
    · obtain ⟨earlier, hmem, hearlier⟩ := ih hbefore
      exact ⟨earlier, List.mem_append_left _ hmem, hearlier⟩
    · exact ⟨visit, List.mem_append_right _ (List.mem_singleton_self _), hsame, hleast⟩

/-- **A ladder is never for an expiry in the past**, and the expiry is the nearest one of a list that
was read for its underlying then or before: on a calendar that has not gone back since, no expiry of
that list is nearer today. -/
theorem ladder_expiry (pre : List OiVisit) (visit : OiVisit) (ladder : Ladder)
    (h : (oiVisit (runState oiVisit ∅ pre) visit).1 = some ladder) :
    visit.today ≤ ladder.expiry ∧
      ∃ read ∈ pre ++ [visit], read.underlying = visit.underlying ∧
        IsLeast (current read.contracts read.today) ladder.expiry ∧
        (read.today ≤ visit.today →
          IsLeast (current read.contracts visit.today) ladder.expiry) := by
  obtain ⟨cache', hresolve⟩ := resolveExpiry_of_ladder h
  obtain ⟨htoday, hcases⟩ := resolveExpiry_cases hresolve
  refine ⟨htoday, ?_⟩
  obtain ⟨read, hmem, hsame, hleast⟩ : ∃ read ∈ pre ++ [visit],
      read.underlying = visit.underlying ∧
        IsLeast (current read.contracts read.today) ladder.expiry := by
    rcases hcases with ⟨hcached, _⟩ | ⟨hleast, _⟩
    · obtain ⟨read, hmem, hread⟩ := exists_discovery pre hcached
      exact ⟨read, List.mem_append_left _ hmem, hread⟩
    · exact ⟨visit, List.mem_append_right _ (List.mem_singleton_self _), rfl, hleast⟩
  refine ⟨read, hmem, hsame, hleast, fun hle => ⟨⟨hleast.1.1, htoday⟩, fun e he => ?_⟩⟩
  exact hleast.2 ⟨he.1, hle.trans he.2⟩

/-- A visit on a Tuesday; the contracts expire on Thursday. -/
def tuesdayVisit : OiVisit where
  underlying := "NSE_INDEX|Nifty 50"
  today := "2026-01-27"
  contracts := .ok (.obj [("data", .arr [.obj [("expiry", .str "2026-01-29")]])])
  chain := .ok (.obj [("data", .arr [.null])])
  tsNs := 0

/-- On Wednesday the expiry comes from the cache, and the contracts cannot be read. -/
def wednesdayVisit : OiVisit :=
  { tuesdayVisit with today := "2026-01-28", contracts := .error "option contract http" }

/-- The ladder of Wednesday. -/
def wednesdayLadder : Ladder where
  subject := "md.oi.Nifty50"
  symbol := "Nifty 50"
  expiry := "2026-01-29"
  strikes := []
  tsNs := 0

/-- Tuesday leaves the expiry in the cache. -/
theorem cache_after_tuesday : runState oiVisit ∅ [tuesdayVisit]
    = (∅ : Map String String).insert "NSE_INDEX|Nifty 50" "2026-01-29" := by
  simp [oiVisit, tuesdayVisit, resolveExpiry, discoverNearestExpiry, Except.bind, Except.map,
    dataArray, listedExpiries, fetchOptionChain]

theorem oiVisit_wednesday :
    (oiVisit (runState oiVisit ∅ [tuesdayVisit]) wednesdayVisit).1 = some wednesdayLadder := by
  have hcached : ((∅ : Map String String).insert "NSE_INDEX|Nifty 50" "2026-01-29").lookup
      "NSE_INDEX|Nifty 50" = some "2026-01-29" := AList.lookup_insert _
  have hday : ("2026-01-28" : String) ≤ "2026-01-29" := by decide
  have hsymbol : underlyingDisplay "NSE_INDEX|Nifty 50" = "Nifty 50" := by decide
  have hsubject : "md.oi." ++ subjectToken "Nifty 50" = "md.oi.Nifty50" := by decide
  have hstrikes : trimmedStrikes [Json.null] = [] := by
    have hnone : sortedStrikes [Json.null] = [] := List.mergeSort_nil
    rw [trimmedStrikes, hnone]
    exact if_neg fun h => absurd h.2 (by decide)
  rw [cache_after_tuesday, oiVisit, wednesdayVisit, tuesdayVisit, resolveExpiry, hcached,
    Option.filter_some]
  simp [hday, fetchOptionChain, Except.bind, dataArray, publishOi, wednesdayLadder, hsymbol,
    hsubject, hstrikes]

theorem ladder_expiry_wednesday :
    wednesdayVisit.today ≤ wednesdayLadder.expiry ∧
      ∃ read ∈ [tuesdayVisit] ++ [wednesdayVisit], read.underlying = wednesdayVisit.underlying ∧
        IsLeast (current read.contracts read.today) wednesdayLadder.expiry ∧
        (read.today ≤ wednesdayVisit.today →
          IsLeast (current read.contracts wednesdayVisit.today) wednesdayLadder.expiry) :=
  ladder_expiry [tuesdayVisit] wednesdayVisit wednesdayLadder oiVisit_wednesday

/-! ## Strikes -/

/-- The comparisons of `publish_oi` are by integer keys. -/
theorem strike_le_eq : (fun a b : Strike => decide (a.strikePaise ≤ b.strikePaise))
    = byKey fun strike => strike.strikePaise.toInt := by
  funext a b
  simp only [byKey, Int64.le_iff_toInt_le]

theorem distance_le_eq (spot : Int64) :
    (fun a b : Strike => decide ((a.strikePaise - spot).abs ≤ (b.strikePaise - spot).abs))
      = byKey fun strike => (strike.strikePaise - spot).abs.toInt := by
  funext a b
  simp only [byKey, Int64.le_iff_toInt_le]

theorem sortedStrikes_perm (chain : List Json) :
    (sortedStrikes chain).Perm (chain.filterMap strikeOf) := List.mergeSort_perm _ _

/-- The strikes are cut if there is a spot and there are more than 11 of them. -/
def IsCut (chain : List Json) : Prop :=
  0 < spotPaise chain ∧ 11 < (chain.filterMap strikeOf).length

theorem trimmedStrikes_of_isCut {chain : List Json} (h : IsCut chain) :
    trimmedStrikes chain = (((sortedStrikes chain).mergeSort
      (byKey fun strike => (strike.strikePaise - spotPaise chain).abs.toInt)).take 11).mergeSort
        (byKey fun strike => strike.strikePaise.toInt) := by
  rw [IsCut, ← (sortedStrikes_perm chain).length_eq] at h
  rw [← distance_le_eq, ← strike_le_eq]
  exact if_pos h

theorem trimmedStrikes_of_not_isCut {chain : List Json} (h : ¬IsCut chain) :
    trimmedStrikes chain = sortedStrikes chain := by
  rw [IsCut, ← (sortedStrikes_perm chain).length_eq] at h
  exact if_neg h

/-- **The strikes of a ladder** are in order of their price and each comes from an entry of the
chain. Nothing is left out without a spot or up to 11 strikes; otherwise 11 are kept, and no strike
left out is nearer the spot than a kept one. -/
theorem trimmedStrikes_nearest (chain : List Json)
    (hprices : ∀ strike ∈ chain.filterMap strikeOf, 0 ≤ strike.strikePaise.toInt) :
    (trimmedStrikes chain).Pairwise (fun a b => a.strikePaise.toInt ≤ b.strikePaise.toInt) ∧
      ∃ left, (trimmedStrikes chain ++ left).Perm (chain.filterMap strikeOf) ∧
        (IsCut chain → (trimmedStrikes chain).length = 11) ∧ (¬IsCut chain → left = []) ∧
        ∀ kept ∈ trimmedStrikes chain, ∀ other ∈ left,
          |kept.strikePaise.toInt - (spotPaise chain).toInt|
            ≤ |other.strikePaise.toInt - (spotPaise chain).toInt| := by
  have hperm := sortedStrikes_perm chain
  by_cases hcut : IsCut chain
  · obtain ⟨hsplit, hnear⟩ := take_mergeSort_byKey
      (fun strike : Strike => (strike.strikePaise - spotPaise chain).abs.toInt) 11
      (sortedStrikes chain)
    have hspot : 0 ≤ (spotPaise chain).toInt := (Int64.lt_iff_toInt_lt.mp hcut.1).le
    rw [trimmedStrikes_of_isCut hcut]
    refine ⟨pairwise_mergeSort_byKey _ _, _,
      ((List.mergeSort_perm _ _).append_right _).trans (hsplit.trans hperm), fun _ => ?_,
      fun hnot => absurd hcut hnot, fun kept hkept other hother => ?_⟩
    · rw [List.length_mergeSort, List.length_take, List.length_mergeSort, hperm.length_eq]
      exact Nat.min_eq_left hcut.2.le
    · have hkept' := List.mem_mergeSort.mp hkept
      have hdist := hnear kept hkept' other hother
      have hin := fun strike h => hprices strike ((hsplit.trans hperm).mem_iff.mp h)
      rwa [Int64.toInt_abs_sub (hin kept (List.mem_append_left _ hkept')) hspot,
        Int64.toInt_abs_sub (hin other (List.mem_append_right _ hother)) hspot] at hdist
  · rw [trimmedStrikes_of_not_isCut hcut]
    refine ⟨?_, [], ?_, fun h => absurd h hcut, fun _ => rfl,
      fun _ _ other hother => absurd hother List.not_mem_nil⟩
    · rw [sortedStrikes, strike_le_eq]
      exact pairwise_mergeSort_byKey _ _
    · rw [List.append_nil]
      exact hperm

/-- A chain from 22 400 rupees down to 21 800 in steps of 50, each entry with the spot. -/
def niftyChain : List Json :=
  (List.range 13).map fun i =>
    .obj [("strike_price", .num (.posInt (.ofNat (22400 - 50 * i)))),
      ("underlying_spot_price", .num (.posInt 22130))]

theorem isCut_niftyChain : IsCut niftyChain := ⟨by decide +kernel, by decide +kernel⟩

theorem trimmedStrikes_nearest_niftyChain :
    IsCut niftyChain ∧
    (trimmedStrikes niftyChain).Pairwise (fun a b => a.strikePaise.toInt ≤ b.strikePaise.toInt) ∧
      ∃ left, (trimmedStrikes niftyChain ++ left).Perm (niftyChain.filterMap strikeOf) ∧
        (IsCut niftyChain → (trimmedStrikes niftyChain).length = 11) ∧
        (¬IsCut niftyChain → left = []) ∧
        ∀ kept ∈ trimmedStrikes niftyChain, ∀ other ∈ left,
          |kept.strikePaise.toInt - (spotPaise niftyChain).toInt|
            ≤ |other.strikePaise.toInt - (spotPaise niftyChain).toInt| :=
  ⟨isCut_niftyChain, trimmedStrikes_nearest niftyChain (by decide +kernel)⟩

end Hedge.MarketData.Upstox
