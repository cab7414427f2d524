import Hedge.Ai.Ollama

/-!
# Retries and fallback of a request to the model daemons

The fallback chain alone fixes the path of a request: the roles from the requested one on, up to a
role without a fallback or to the first repetition. `resolve` reads the end of a request off that
path: the first role that does not hand over decides. The loop of the client does just that, asking
each role at most as often as its retries allow and telling the bus about each hand-over once.
-/

namespace Hedge.Ai.Ollama

open Hedge.Common

/-! ## One endpoint

Attempts are repeated until one ends in another way than by a fault of the daemon. -/

section Endpoint

variable (w : Outside) (req : Request) (role : OllamaRoleKey) (ep : OllamaModelEndpoint)

/-- The result of the `k`-th attempt at a role. -/
def attemptAt (k : ℕ) : List OllamaResponseChunk × StreamEnd := attempt w role ep (w.reply role k)

/-- The `k`-th attempt is not repeated, whatever retries are left. -/
def settles (k : ℕ) : Bool :=
  match (attemptAt w role ep k).2 with
  | .failed _ => false
  | _ => true

/-- The last attempt that is made. -/
def lastTry : ℕ := lastAttempt (settles w role ep) ep.maxRetries 0

/-- What the `k`-th attempt is seen to do. -/
def attemptEffects (k : ℕ) : List Effect :=
  .post role (postOf ep req) :: (attemptAt w role ep k).1.map .chunk

theorem streamFrom_eq (left k : ℕ) :
    streamFrom w req role ep left k =
      ((List.range' k (lastAttempt (settles w role ep) left k + 1 - k)).flatMap
          (attemptEffects w req role ep),
        (attemptAt w role ep (lastAttempt (settles w role ep) left k)).2) := by
  induction left generalizing k with
  | zero =>
    have hone : k + 1 - k = 1 := by omega
    rw [streamFrom, lastAttempt, hone]
    simp only [List.range'_one, List.flatMap_singleton, attemptEffects, attemptAt]
    split <;> simp_all
  | succ left ih =>
    rw [streamFrom, lastAttempt]
    cases hend : (attemptAt w role ep k).2 with
    | failed kind =>
      have hset : settles w role ep k = false := by rw [settles, hend]
      have hle : k + 1 ≤ lastAttempt (settles w role ep) left (k + 1) := le_lastAttempt left (k + 1)
      have hlen : lastAttempt (settles w role ep) left (k + 1) + 1 - k =
          (lastAttempt (settles w role ep) left (k + 1) + 1 - (k + 1)) + 1 := by omega
      rw [attemptAt] at hend
      simp only [hset, hend, ih (k + 1), Bool.false_eq_true, if_false]
      rw [hlen, List.range'_succ, List.flatMap_cons]
      rfl
    | complete | rejected | raised =>
      have hset : settles w role ep k = true := by rw [settles, hend]
      have hone : k + 1 - k = 1 := by omega
      simp only [hset, if_true, hone, List.range'_one, List.flatMap_singleton, attemptEffects, hend]
      rw [attemptAt] at hend ⊢
      simp only [hend]

/-- All attempts at an endpoint: those up to the last one, whose end is the end of the stream. -/
theorem streamOne_eq :
    streamOne w req role ep =
      ((List.range (lastTry w role ep + 1)).flatMap (attemptEffects w req role ep),
        (attemptAt w role ep (lastTry w role ep)).2) := by
  rw [streamOne, streamFrom_eq, List.range_eq_range']
  rfl

theorem settles_eq_false_iff {k : ℕ} :
    settles w role ep k = false ↔ ∃ kind, (attemptAt w role ep k).2 = .failed kind := by
  rw [settles]
  cases (attemptAt w role ep k).2 <;> simp

/-- The stream of an endpoint is complete exactly when an attempt within the retries is, and those
before it have failed; it is then the last one. -/
theorem complete_iff_lastTry {k : ℕ} :
    (k = lastTry w role ep ∧ (streamOne w req role ep).2 = .complete) ↔
      k ≤ ep.maxRetries ∧ (∀ j < k, ∃ kind, (attemptAt w role ep j).2 = .failed kind) ∧
        (attemptAt w role ep k).2 = .complete := by
  rw [streamOne_eq]
  constructor
  · rintro ⟨rfl, hcomplete⟩
    refine ⟨?_, fun j hj => ?_, hcomplete⟩
    · have hle : lastAttempt (settles w role ep) ep.maxRetries 0 ≤ 0 + ep.maxRetries :=
        lastAttempt_le ep.maxRetries 0
      simpa [lastTry] using hle
    · exact (settles_eq_false_iff w role ep).mp (not_settles_of_lt_lastAttempt (Nat.zero_le j) hj)
  · rintro ⟨hle, hbefore, hcomplete⟩
    have hreached : k ≤ lastTry w role ep := by
      refine (le_lastAttempt_iff (Nat.zero_le k)).mpr ⟨by omega, fun j _ hj => ?_⟩
      exact (settles_eq_false_iff w role ep).mpr (hbefore j hj)
    have hlast : k = lastTry w role ep := by
      refine Nat.le_antisymm hreached (Nat.le_of_not_lt fun hlt => ?_)
      obtain ⟨kind, hfailed⟩ :=
        (settles_eq_false_iff w role ep).mp (not_settles_of_lt_lastAttempt (Nat.zero_le k) hlt)
      rw [hcomplete] at hfailed
      cases hfailed
    exact ⟨hlast, hlast ▸ hcomplete⟩

theorem lastTry_le : lastTry w role ep ≤ ep.maxRetries := by
  have hle : lastAttempt (settles w role ep) ep.maxRetries 0 ≤ 0 + ep.maxRetries :=
    lastAttempt_le ep.maxRetries 0
  simpa [lastTry] using hle

end Endpoint

/-! ## The parts of what is seen -/

/-- The roles that requests are posted to. -/
def postedTo (effects : List Effect) : List OllamaRoleKey :=
  effects.filterMap fun
    | .post role _ => some role
    | _ => none

/-- The chunks the caller reads. -/
def chunksOf (effects : List Effect) : List OllamaResponseChunk :=
  effects.filterMap fun
    | .chunk c => some c
    | _ => none

/-- The events for the bus. -/
def eventsOf (effects : List Effect) : List OllamaDegraded :=
  effects.filterMap fun
    | .degraded event => some event
    | _ => none

/-- The text of the chunks, as `_stream` of the narrative builder joins it. -/
def textOf (chunks : List OllamaResponseChunk) : String :=
  String.ofList ((chunks.filter fun c => c.text ≠ "").flatMap fun c => c.text.toList)

/-- In what distinct places contribute, each its own mark, a mark comes from its own place only. -/
theorem count_flatMap_replicate_le {α : Type*} [DecidableEq α] {l : List α} (hl : l.Nodup)
    (n : α → ℕ) (a : α) : (l.flatMap fun b => List.replicate (n b) b).count a ≤ n a := by
  induction l with
  | nil => exact Nat.zero_le _
  | cons b l ih =>
    obtain ⟨hb, hl⟩ := List.nodup_cons.mp hl
    rw [List.flatMap_cons, List.count_append, List.count_replicate]
    by_cases hba : b = a
    · subst hba
      have hzero : (l.flatMap fun b => List.replicate (n b) b).count b = 0 := by
        refine List.count_eq_zero.mpr fun hmem => ?_
        obtain ⟨d, hd, hbd⟩ := List.mem_flatMap.mp hmem
        exact hb (List.eq_of_mem_replicate hbd ▸ hd)
      simp [hzero]
    · have hne : (b == a) = false := beq_eq_false_iff_ne.mpr hba
      rw [hne]
      simpa using ih hl

theorem textOf_append (cs ds : List OllamaResponseChunk) :
    (textOf (cs ++ ds)).toList = (textOf cs).toList ++ (textOf ds).toList := by
  simp [textOf]

/-- Chunks in front of a reply leave its text as it is exactly when they have none. -/
theorem textOf_append_eq_iff {cs ds : List OllamaResponseChunk} :
    textOf (cs ++ ds) = textOf ds ↔ ∀ ch ∈ cs, ch.text = "" := by
  rw [← String.toList_inj, textOf_append, List.append_left_eq_self]
  simp [textOf]

section Parts

variable (w : Outside) (req : Request) (role : OllamaRoleKey) (ep : OllamaModelEndpoint)

theorem postedTo_attemptEffects (k : ℕ) : postedTo (attemptEffects w req role ep k) = [role] := by
  simp [postedTo, attemptEffects, List.filterMap_map]

theorem chunksOf_attemptEffects (k : ℕ) :
    chunksOf (attemptEffects w req role ep k) = (attemptAt w role ep k).1 := by
  simp [chunksOf, attemptEffects, List.filterMap_map]

theorem eventsOf_attemptEffects (k : ℕ) : eventsOf (attemptEffects w req role ep k) = [] := by
  simp [eventsOf, attemptEffects, List.filterMap_map]

end Parts

/-! ## The path of a request -/

namespace OllamaClient

variable (c : OllamaClient) (w : Outside) (req : Request)

/-- The roles that the fallback chain leads to from a role. -/
def fallbackPath (role : OllamaRoleKey) : List OllamaRoleKey :=
  visits c.nextRole (c.endpoints.keys.length + 1) [] role

/-- The error a role is given up with, when all its attempts fail. -/
def errorOf (role : OllamaRoleKey) : Option OllamaClientError :=
  (c.endpoints.lookup role).bind fun ep => match (streamOne w req role ep).2 with
    | .failed kind => some ⟨kind, role, ep.model⟩
    | _ => none

/-- The event of leaving a role for its fallback. -/
def hopEvent (role : OllamaRoleKey) : Option OllamaDegraded := do
  let source ← c.endpoints.lookup role
  let error ← c.errorOf w req role
  let next ← c.nextRole role
  let target ← c.endpoints.lookup next
  degradedEvent w role source target (reasonOf error.kind)

/-- A role is given up, and the bus can be told of the fallback if there is one. -/
def handsOver (role : OllamaRoleKey) : Bool :=
  (c.errorOf w req role).isSome && ((c.nextRole role).isNone || (c.hopEvent w req role).isSome)

/-- What is seen of asking one role. -/
def roleEffects (role : OllamaRoleKey) : List Effect :=
  (c.endpoints.lookup role).elim [] (fun ep => (streamOne w req role ep).1) ++
    (c.hopEvent w req role).toList.map .degraded

/-- The end of a request at a role that does not hand over. -/
def decided (role : OllamaRoleKey) : Outcome :=
  (c.endpoints.lookup role).elim .raised fun ep => match (streamOne w req role ep).2 with
    | .complete => .complete
    | .rejected kind => .rejected ⟨kind, role, ep.model⟩
    | _ => .raised

/-- The end of a request that has still a path to go, after failures. -/
def resolveAfter (originalRole : OllamaRoleKey)
    (failures : List (OllamaRoleKey × OllamaClientError)) (path : List OllamaRoleKey) : Outcome :=
  match path.find? fun r => !c.handsOver w req r with
  | none => c.exhausted originalRole
      (failures ++ path.filterMap fun r => (c.errorOf w req r).map fun e => (r, e))
  | some r => c.decided w req r

/-- The end of a request, read off the path of its role. -/
def resolve (role : OllamaRoleKey) : Outcome :=
  c.resolveAfter w req role [] (c.fallbackPath role)

section Walk

variable {c w req} {originalRole current next : OllamaRoleKey} {fuel : ℕ}
  {visited : List OllamaRoleKey} {failures : List (OllamaRoleKey × OllamaClientError)}

theorem nextRole_mem (h : c.nextRole current = some next) : next ∈ c.endpoints := by
  obtain ⟨_, hreg⟩ := Option.filter_eq_some_iff.mp h
  exact AList.lookup_isSome.mp hreg

/-- The registration check of the loop never stops it: the constructor has made it. -/
theorem nextRole_eq (role : OllamaRoleKey) : c.nextRole role = c.fallbackChain.lookup role := by
  rw [nextRole]
  cases hnext : c.fallbackChain.lookup role with
  | none => rfl
  | some dst =>
    have hdst := AList.lookup_isSome.mpr (c.chain_registered role dst hnext).2
    rw [Option.filter_some, if_pos hdst]

theorem resolveAfter_cons_of_handsOver {e : OllamaClientError} {path : List OllamaRoleKey}
    (he : c.errorOf w req current = some e) (h : c.handsOver w req current = true) :
    c.resolveAfter w req originalRole failures (current :: path) =
      c.resolveAfter w req originalRole (failures ++ [(current, e)]) path := by
  simp only [resolveAfter, List.find?_cons, h, Bool.not_true]
  cases path.find? fun r => !c.handsOver w req r with
  | none => simp only [List.filterMap_cons, he, Option.map_some, List.append_assoc,
      List.singleton_append]
  | some r => rfl

theorem resolveAfter_cons_of_not {path : List OllamaRoleKey} (h : c.handsOver w req current = false) :
    c.resolveAfter w req originalRole failures (current :: path) = c.decided w req current := by
  simp only [resolveAfter, List.find?_cons, h, Bool.not_false]

/-- A role whose stream ends otherwise than by failing is not left. -/
theorem roleEffects_of_errorOf_eq_none {ep : OllamaModelEndpoint}
    (hep : c.endpoints.lookup current = some ep) (he : c.errorOf w req current = none) :
    c.handsOver w req current = false ∧
      c.roleEffects w req current = (streamOne w req current ep).1 := by
  have hhop : c.hopEvent w req current = none := by
    simp [hopEvent, hep, he]
  constructor
  · rw [handsOver, he]
    rfl
  · rw [roleEffects, hep, hhop]
    exact List.append_nil _

/-- The loop, from any point of it on, does what the rest of the path says. -/
theorem walk_eq (hvisited : visited.Nodup) (hreg : ∀ r ∈ visited, r ∈ c.endpoints)
    (hcurrent : current ∈ c.endpoints)
    (hfuel : c.endpoints.keys.length < fuel + visited.length) :
    c.walk w req originalRole fuel visited failures current =
      ((throughFirst (c.handsOver w req) (visits c.nextRole fuel visited current)).flatMap
          (c.roleEffects w req),
        some (c.resolveAfter w req originalRole failures
          (visits c.nextRole fuel visited current))) := by
  induction fuel generalizing visited failures current with
  | zero =>
    -- more roles visited than there are
    have hle : visited.length ≤ c.endpoints.keys.length :=
      (hvisited.subperm fun r hr => AList.mem_keys.mp (hreg r hr)).length_le
    omega
  | succ fuel ih =>
    by_cases hmem : current ∈ visited
    · rw [visits_of_mem hmem, walk, if_pos hmem]
      simp [throughFirst, resolveAfter]
    obtain ⟨ep, hep⟩ := Option.isSome_iff_exists.mp (AList.lookup_isSome.mpr hcurrent)
    rw [visits_succ hmem, walk, if_neg hmem]
    rcases hstream : streamOne w req current ep with ⟨effects, ending⟩
    cases ending with
    | complete | rejected | raised =>
      have he : c.errorOf w req current = none := by simp [errorOf, hep, hstream]
      obtain ⟨hstay, heffects⟩ := roleEffects_of_errorOf_eq_none hep he
      rw [throughFirst, hstay, resolveAfter_cons_of_not hstay, decided]
      simp [hep, hstream, heffects]
    | failed kind =>
      have he : c.errorOf w req current = some ⟨kind, current, ep.model⟩ := by
        simp [errorOf, hep, hstream]
      cases hnext : c.nextRole current with
      | none =>
        have hgo : c.handsOver w req current = true := by simp [handsOver, he, hnext]
        rw [Option.elim_none, throughFirst, hgo, resolveAfter_cons_of_handsOver he hgo]
        simp [hep, hstream, hnext, roleEffects, hopEvent, throughFirst, resolveAfter]
      | some next =>
        have hmem' := nextRole_mem hnext
        obtain ⟨target, htarget⟩ := Option.isSome_iff_exists.mp (AList.lookup_isSome.mpr hmem')
        cases hevent : degradedEvent w current ep target (reasonOf kind) with
        | none =>
          have hhop : c.hopEvent w req current = none := by
            simp [hopEvent, hep, he, hnext, htarget, hevent]
          have hstay : c.handsOver w req current = false := by simp [handsOver, hnext, hhop]
          rw [throughFirst, hstay, resolveAfter_cons_of_not hstay, decided]
          simp [hep, hstream, htarget, hevent, roleEffects, hhop]
        | some event =>
          have hhop : c.hopEvent w req current = some event := by
            simp [hopEvent, hep, he, hnext, htarget, hevent]
          have hgo : c.handsOver w req current = true := by simp [handsOver, he, hhop]
          have hreg' : ∀ r ∈ visited ++ [current], r ∈ c.endpoints := by
            intro r hr
            rcases List.mem_append.mp hr with hr | hr
            · exact hreg r hr
            · exact List.mem_singleton.mp hr ▸ hcurrent
          have hlen : (visited ++ [current]).length = visited.length + 1 := by simp
          have hrest : c.walk w req originalRole fuel (visited ++ [current])
              (failures ++ [(current, ⟨kind, current, ep.model⟩)]) next = _ :=
            ih (nodup_concat hvisited hmem) hreg' hmem' (by omega)
          rw [Option.elim_some, throughFirst, hgo, resolveAfter_cons_of_handsOver he hgo]
          simp [hep, hstream, htarget, hevent, hrest, roleEffects, hhop]

end Walk

/-! ## What a request comes to -/

theorem streamGenerate_eq {role : OllamaRoleKey} (hrole : role ∈ c.endpoints)
    (hoptions : ∀ key ∈ reservedKeys, key ∉ req.options) :
    c.streamGenerate w role req =
      ((throughFirst (c.handsOver w req) (c.fallbackPath role)).flatMap (c.roleEffects w req),
        some (c.resolve w req role)) := by
  have hfind : (reservedKeys.find? fun key => key ∈ req.options) = none := by
    simpa [List.find?_eq_none] using hoptions
  rw [streamGenerate, if_neg (not_not_intro hrole), hfind]
  exact walk_eq List.nodup_nil (fun r hr => absurd hr List.not_mem_nil) hrole (by simp)

theorem fallbackPath_registered {role : OllamaRoleKey} (hrole : role ∈ c.endpoints) :
    ∀ r ∈ c.fallbackPath role, r ∈ c.endpoints :=
  forall_mem_visits hrole fun _ _ _ h => nextRole_mem h

/-- The path of a role: it starts there, follows the chain, repeats no role, and leaves out none that
the chain leads to. -/
theorem fallbackPath_spec {role : OllamaRoleKey} (hrole : role ∈ c.endpoints) :
    (c.fallbackPath role).head? = some role ∧ (c.fallbackPath role).Nodup ∧
      (c.fallbackPath role).IsChain (fun a b => c.fallbackChain.lookup a = some b) ∧
      ∀ a ∈ c.fallbackPath role, ∀ b, c.fallbackChain.lookup a = some b →
        b ∈ c.fallbackPath role := by
  refine ⟨head?_visits List.not_mem_nil, nodup_visits, ?_, ?_⟩
  · simp only [← nextRole_eq]
    exact isChain_visits
  · intro a ha b hab
    rw [← nextRole_eq] at hab
    have hkeys : ∀ a ∈ ([] : List OllamaRoleKey), a ∈ c.endpoints.keys :=
      fun a ha => absurd ha List.not_mem_nil
    have hmem := mem_of_next_mem_visits List.nodup_nil hkeys (AList.mem_keys.mp hrole)
      (fun a b _ h => AList.mem_keys.mp (nextRole_mem h)) (by simp) ha hab
    rwa [List.nil_append] at hmem

/-- A request follows its path: the roles on it are asked in order up to the first that does not hand
over, and that one decides; when all hand over, the request ends with the error of each. -/
theorem streamGenerate_follows_path {role : OllamaRoleKey} (hrole : role ∈ c.endpoints)
    (hoptions : ∀ key ∈ reservedKeys, key ∉ req.options) :
    ∃ path : List OllamaRoleKey,
      (path.head? = some role ∧ path.Nodup ∧
        path.IsChain (fun a b => c.fallbackChain.lookup a = some b) ∧
        ∀ a ∈ path, ∀ b, c.fallbackChain.lookup a = some b → b ∈ path) ∧
      (c.streamGenerate w role req).1 =
        (throughFirst (c.handsOver w req) path).flatMap (c.roleEffects w req) ∧
      (c.streamGenerate w role req).2 = some (match path.find? fun r => !c.handsOver w req r with
        | none => c.exhausted role (path.filterMap fun r => (c.errorOf w req r).map fun e => (r, e))
        | some r => c.decided w req r) := by
  refine ⟨c.fallbackPath role, fallbackPath_spec c hrole, ?_, ?_⟩
  · rw [streamGenerate_eq c w req hrole hoptions]
  · rw [streamGenerate_eq c w req hrole hoptions, resolve, resolveAfter, List.nil_append]

end OllamaClient

/-- The first daemon is gone, the second is overloaded, the third answers with one last chunk. -/
def thirdAnswers : Outside where
  reply role _ :=
    if role = "mistral" then .answered 200 ["line"] none
    else if role = "deepseek" then .answered 503 [] none
    else .refused .network
  wallClockNs _ := 0
  loads _ := some (.obj [("response", .str "flat"), ("done", .bool true)])
  str _ := ""

/-- A prompt without options. -/
def hello : Request := ⟨"hello", ∅, none⟩

namespace OllamaClient

/-- On the default chain the request of the first role is asked of three. -/
theorem standard_follows_path : ∃ path : List OllamaRoleKey,
    (path.head? = some "qwen" ∧ path.Nodup ∧
      path.IsChain (fun a b => standard.fallbackChain.lookup a = some b) ∧
      ∀ a ∈ path, ∀ b, standard.fallbackChain.lookup a = some b → b ∈ path) ∧
    (standard.streamGenerate thirdAnswers "qwen" hello).1 =
      (throughFirst (standard.handsOver thirdAnswers hello) path).flatMap
        (standard.roleEffects thirdAnswers hello) ∧
    (standard.streamGenerate thirdAnswers "qwen" hello).2 =
      some (match path.find? fun r => !standard.handsOver thirdAnswers hello r with
        | none => standard.exhausted "qwen"
          (path.filterMap fun r => (standard.errorOf thirdAnswers hello r).map fun e => (r, e))
        | some r => standard.decided thirdAnswers hello r) :=
  streamGenerate_follows_path standard thirdAnswers hello (by decide) (by decide)

/-! ## What is posted and published -/

variable {c : OllamaClient} {w : Outside} {req : Request}

/-- The posts of one role, one for each attempt. -/
theorem postedTo_roleEffects {role : OllamaRoleKey} {ep : OllamaModelEndpoint}
    (hep : c.endpoints.lookup role = some ep) :
    postedTo (c.roleEffects w req role) = List.replicate (lastTry w role ep + 1) role := by
  have hnone : ∀ events : List OllamaDegraded, postedTo (events.map .degraded) = [] := by
    intro events
    simp [postedTo, List.filterMap_map]
  have happ : ∀ xs ys, postedTo (xs ++ ys) = postedTo xs ++ postedTo ys := fun _ _ =>
    List.filterMap_append
  have hposts := fun k => postedTo_attemptEffects w req role ep k
  unfold postedTo at hposts
  rw [roleEffects, hep, Option.elim_some, happ, hnone, List.append_nil, streamOne_eq, postedTo,
    List.filterMap_flatMap]
  simp only [hposts]
  rw [← List.map_eq_flatMap, List.map_const', List.length_range]

/-- The chunks of one role, those of each attempt in turn. -/
theorem chunksOf_roleEffects {role : OllamaRoleKey} {ep : OllamaModelEndpoint}
    (hep : c.endpoints.lookup role = some ep) :
    chunksOf (c.roleEffects w req role) =
      (List.range (lastTry w role ep + 1)).flatMap fun k => (attemptAt w role ep k).1 := by
  have hnone : ∀ events : List OllamaDegraded, chunksOf (events.map .degraded) = [] := by
    intro events
    simp [chunksOf, List.filterMap_map]
  have happ : ∀ xs ys, chunksOf (xs ++ ys) = chunksOf xs ++ chunksOf ys := fun _ _ =>
    List.filterMap_append
  have hchunks := fun k => chunksOf_attemptEffects w req role ep k
  unfold chunksOf at hchunks
  rw [roleEffects, hep, Option.elim_some, happ, hnone, List.append_nil, streamOne_eq, chunksOf,
    List.filterMap_flatMap]
  simp only [hchunks]

/-- The events of one role: the one of leaving it, if it is left. -/
theorem eventsOf_roleEffects {role : OllamaRoleKey} {ep : OllamaModelEndpoint}
    (hep : c.endpoints.lookup role = some ep) :
    eventsOf (c.roleEffects w req role) = (c.hopEvent w req role).toList := by
  have hall : ∀ events : List OllamaDegraded, eventsOf (events.map .degraded) = events := by
    intro events
    simp [eventsOf, List.filterMap_map]
  have happ : ∀ xs ys, eventsOf (xs ++ ys) = eventsOf xs ++ eventsOf ys := fun _ _ =>
    List.filterMap_append
  have hevents := fun k => eventsOf_attemptEffects w req role ep k
  have hstream : eventsOf (streamOne w req role ep).1 = [] := by
    unfold eventsOf at hevents ⊢
    rw [streamOne_eq, List.filterMap_flatMap]
    simp [hevents]
  rw [roleEffects, hep, Option.elim_some, happ, hall, hstream, List.nil_append]

/-- What is posted to a role is the one request of its endpoint. -/
theorem eq_postOf_of_mem_roleEffects {role r : OllamaRoleKey} {p : Post}
    (h : Effect.post r p ∈ c.roleEffects w req role) :
    ∃ ep, c.endpoints.lookup r = some ep ∧ p = postOf ep req := by
  rw [roleEffects] at h
  cases hep : c.endpoints.lookup role with
  | none => simp [hep] at h
  | some ep =>
    simp only [hep, Option.elim_some, streamOne_eq, List.mem_append, List.mem_flatMap, List.mem_map,
      attemptEffects, List.mem_cons, reduceCtorEq, and_false, exists_false, or_false] at h
    obtain ⟨k, -, hpost⟩ := h
    cases hpost
    exact ⟨ep, hep, rfl⟩

/-- The events of a request are those of the asked roles that are left. -/
theorem eventsOf_flatMap_roleEffects {asked : List OllamaRoleKey}
    (hreg : ∀ r ∈ asked, r ∈ c.endpoints) :
    eventsOf (asked.flatMap (c.roleEffects w req)) = asked.filterMap (c.hopEvent w req) := by
  induction asked with
  | nil => rfl
  | cons r asked ih =>
    have happ : ∀ xs ys, eventsOf (xs ++ ys) = eventsOf xs ++ eventsOf ys := fun _ _ =>
      List.filterMap_append
    obtain ⟨ep, hep⟩ := Option.isSome_iff_exists.mp
      (AList.lookup_isSome.mpr (hreg r List.mem_cons_self))
    rw [List.flatMap_cons, happ, eventsOf_roleEffects hep,
      ih fun q hq => hreg q (List.mem_cons_of_mem r hq), List.filterMap_cons]
    cases c.hopEvent w req r <;> rfl

/-- The posts of a request, as often for each asked role as it is tried. -/
theorem postedTo_flatMap_roleEffects {asked : List OllamaRoleKey}
    (hreg : ∀ r ∈ asked, r ∈ c.endpoints) :
    postedTo (asked.flatMap (c.roleEffects w req)) = asked.flatMap fun r =>
      List.replicate ((c.endpoints.lookup r).elim 0 fun ep => lastTry w r ep + 1) r := by
  have happ : ∀ xs ys, postedTo (xs ++ ys) = postedTo xs ++ postedTo ys := fun _ _ =>
    List.filterMap_append
  induction asked with
  | nil => rfl
  | cons r asked ih =>
    obtain ⟨ep, hep⟩ := Option.isSome_iff_exists.mp
      (AList.lookup_isSome.mpr (hreg r List.mem_cons_self))
    rw [List.flatMap_cons, happ, postedTo_roleEffects hep,
      ih fun q hq => hreg q (List.mem_cons_of_mem r hq), List.flatMap_cons, hep, Option.elim_some]

/-- The roles that are asked. -/
theorem asked_spec {role : OllamaRoleKey} (hrole : role ∈ c.endpoints) :
    (throughFirst (c.handsOver w req) (c.fallbackPath role)).Nodup ∧
      ∀ r ∈ throughFirst (c.handsOver w req) (c.fallbackPath role), r ∈ c.endpoints := by
  have hfront := throughFirst_prefix (p := c.handsOver w req) (l := c.fallbackPath role)
  refine ⟨hfront.sublist.nodup (fallbackPath_spec c hrole).2.1, fun r hr => ?_⟩
  exact fallbackPath_registered c hrole r (hfront.subset hr)

/-- A request that is not refused at once has a registered role and options of its own. -/
theorem effects_eq_nil_or (role : OllamaRoleKey) : (c.streamGenerate w role req).1 = [] ∨
    role ∈ c.endpoints ∧ ∀ key ∈ reservedKeys, key ∉ req.options := by
  by_cases hrole : role ∈ c.endpoints
  · cases hfind : reservedKeys.find? fun key => key ∈ req.options with
    | none => exact Or.inr ⟨hrole, by simpa [List.find?_eq_none] using hfind⟩
    | some key =>
      rw [streamGenerate, if_neg (not_not_intro hrole), hfind]
      exact Or.inl rfl
  · rw [streamGenerate, if_pos hrole]
    exact Or.inl rfl

/-- The body of a post: the client's own fields, and every option of the caller. -/
theorem body_postOf (ep : OllamaModelEndpoint) (hoptions : ∀ key ∈ reservedKeys, key ∉ req.options) :
    (postOf ep req).body.lookup "model" = some (.str ep.model) ∧
      (postOf ep req).body.lookup "prompt" = some (.str req.prompt) ∧
      (postOf ep req).body.lookup "stream" = some (.bool true) ∧
      ∀ key v, req.options.lookup key = some v → (postOf ep req).body.lookup key = some v := by
  have hown : ∀ key ∈ reservedKeys, (postOf ep req).body.lookup key =
      ((((∅ : AList fun _ : String => Json).insert "model" (.str ep.model)).insert
        "prompt" (.str req.prompt)).insert "stream" (.bool true)).lookup key := fun key hkey =>
    AList.lookup_union_right (hoptions key hkey)
  refine ⟨?_, ?_, ?_, fun key v hv => ?_⟩
  · rw [hown _ (by decide), AList.lookup_insert_ne (by decide), AList.lookup_insert_ne (by decide),
      AList.lookup_insert]
  · rw [hown _ (by decide), AList.lookup_insert_ne (by decide), AList.lookup_insert]
  · rw [hown _ (by decide), AList.lookup_insert]
  · exact (AList.lookup_union_left (AList.lookup_isSome.mp (hv ▸ rfl))).trans hv

/-- What an event says of the role that is left. -/
theorem hopEvent_spec {role : OllamaRoleKey} {event : OllamaDegraded}
    (h : c.hopEvent w req role = some event) : ∃ source next target,
      c.endpoints.lookup role = some source ∧ c.fallbackChain.lookup role = some next ∧
      c.endpoints.lookup next = some target ∧ event.model = source.model ∧
      event.fallbackModel = target.model := by
  simp only [hopEvent, Option.bind_eq_bind, Option.bind_eq_some_iff] at h
  obtain ⟨source, hsource, error, -, next, hnext, target, htarget, hevent⟩ := h
  rw [nextRole_eq] at hnext
  rw [degradedEvent] at hevent
  split at hevent
  · cases hevent
    exact ⟨source, next, target, hsource, hnext, htarget, rfl, rfl⟩
  · cases hevent

/-- The posts and events of a request: a role is asked at most as often as its retries allow, with
the client's own fields in the body whatever the options are, and the bus is told once about each
role that is left, which names its model and that of its fallback. -/
theorem streamGenerate_bounded (c : OllamaClient) (w : Outside) (req : Request)
    (role : OllamaRoleKey) :
    (∀ r ep, c.endpoints.lookup r = some ep →
      (postedTo (c.streamGenerate w role req).1).count r ≤ ep.maxRetries + 1) ∧
    (∀ r p, Effect.post r p ∈ (c.streamGenerate w role req).1 →
      ∃ ep, c.endpoints.lookup r = some ep ∧ p.url = ep.generateUrl ∧
        p.body.lookup "model" = some (.str ep.model) ∧
        p.body.lookup "prompt" = some (.str req.prompt) ∧
        p.body.lookup "stream" = some (.bool true)) ∧
    ∃ left : List OllamaRoleKey, left.Nodup ∧
      List.Forall₂ (fun r event => ∃ source next target,
        c.endpoints.lookup r = some source ∧ c.fallbackChain.lookup r = some next ∧
        c.endpoints.lookup next = some target ∧ event.model = source.model ∧
        event.fallbackModel = target.model) left (eventsOf (c.streamGenerate w role req).1) := by
  have heffects : (c.streamGenerate w role req).1 = [] ∨
      role ∈ c.endpoints ∧ ∀ key ∈ reservedKeys, key ∉ req.options := effects_eq_nil_or role
  rcases heffects with hnil | ⟨hrole, hoptions⟩
  · rw [hnil]
    exact ⟨fun r ep _ => Nat.zero_le _, fun r p h => absurd h List.not_mem_nil,
      [], List.nodup_nil, .nil⟩
  rw [streamGenerate_eq c w req hrole hoptions]
  obtain ⟨hnodup, hreg⟩ := @asked_spec c w req role hrole
  generalize throughFirst (c.handsOver w req) (c.fallbackPath role) = asked at hnodup hreg ⊢
  refine ⟨fun r ep hep => ?_, fun r p hp => ?_, ?_⟩
  · rw [postedTo_flatMap_roleEffects hreg]
    refine Nat.le_trans (count_flatMap_replicate_le hnodup _ r) ?_
    rw [hep, Option.elim_some]
    exact Nat.succ_le_succ (lastTry_le w r ep)
  · obtain ⟨q, -, hpost⟩ := List.mem_flatMap.mp hp
    obtain ⟨ep, hep, rfl⟩ := eq_postOf_of_mem_roleEffects hpost
    obtain ⟨hmodel, hprompt, hstream, -⟩ := body_postOf ep hoptions
    exact ⟨ep, hep, rfl, hmodel, hprompt, hstream⟩
  · refine ⟨asked.filter fun r => (c.hopEvent w req r).isSome, hnodup.filter _, ?_⟩
    rw [eventsOf_flatMap_roleEffects hreg]
    clear hnodup hreg
    induction asked with
    | nil => exact .nil
    | cons r asked ih =>
      cases hevent : c.hopEvent w req r with
      | none => simpa [hevent] using ih
      | some event =>
        rw [List.filter_cons_of_pos (by rw [hevent]; rfl), List.filterMap_cons_some hevent]
        exact .cons (hopEvent_spec hevent) ih

/-! ## Completion -/

theorem decided_eq_complete_iff {role : OllamaRoleKey} :
    c.decided w req role = .complete ↔
      ∃ ep, c.endpoints.lookup role = some ep ∧ (streamOne w req role ep).2 = .complete := by
  rw [decided]
  cases hep : c.endpoints.lookup role with
  | none => simp
  | some ep => cases hend : (streamOne w req role ep).2 <;> simp [hend]

theorem handsOver_eq_false_of_complete {role : OllamaRoleKey} {ep : OllamaModelEndpoint}
    (hep : c.endpoints.lookup role = some ep) (h : (streamOne w req role ep).2 = .complete) :
    c.handsOver w req role = false := by
  simp [handsOver, errorOf, hep, h]

/-- A path resolves to a complete reply when its first role that does not hand over has one. -/
theorem resolve_eq_complete_iff {role : OllamaRoleKey} :
    c.resolve w req role = .complete ↔
      ∃ pre r post ep, c.fallbackPath role = pre ++ r :: post ∧
        (∀ q ∈ pre, c.handsOver w req q = true) ∧ c.endpoints.lookup r = some ep ∧
        (streamOne w req r ep).2 = .complete := by
  rw [resolve, resolveAfter]
  constructor
  · intro h
    cases hfind : (c.fallbackPath role).find? fun r => !c.handsOver w req r with
    | none => simp [hfind, exhausted] at h
    | some r =>
      rw [hfind] at h
      obtain ⟨ep, hep, hcomplete⟩ := decided_eq_complete_iff.mp h
      obtain ⟨-, pre, post, hpath, hpre⟩ := List.find?_eq_some_iff_append.mp hfind
      exact ⟨pre, r, post, ep, hpath, fun q hq => by simpa using hpre q hq, hep, hcomplete⟩
  · rintro ⟨pre, r, post, ep, hpath, hpre, hep, hcomplete⟩
    have hfind : ((c.fallbackPath role).find? fun r => !c.handsOver w req r) = some r := by
      refine List.find?_eq_some_iff_append.mpr ⟨?_, pre, post, hpath, fun q hq => ?_⟩
      · simp [handsOver_eq_false_of_complete hep hcomplete]
      · simp [hpre q hq]
    rw [hfind]
    exact decided_eq_complete_iff.mpr ⟨ep, hep, hcomplete⟩

/-- Every chunk of a role that hands over is of a failed attempt. -/
theorem failed_of_mem_chunks {role : OllamaRoleKey} {ch : OllamaResponseChunk}
    (h : c.handsOver w req role = true) (hch : ch ∈ chunksOf (c.roleEffects w req role)) :
    ∃ ep j kind, c.endpoints.lookup role = some ep ∧ ch ∈ (attemptAt w role ep j).1 ∧
      (attemptAt w role ep j).2 = .failed kind := by
  cases hep : c.endpoints.lookup role with
  | none => simp [handsOver, errorOf, hep] at h
  | some ep =>
    rw [chunksOf_roleEffects hep] at hch
    obtain ⟨j, hj, hch⟩ := List.mem_flatMap.mp hch
    rcases Nat.lt_or_eq_of_le (Nat.lt_succ_iff.mp (List.mem_range.mp hj)) with hlt | rfl
    · obtain ⟨kind, hkind⟩ := (settles_eq_false_iff w role ep).mp
        (not_settles_of_lt_lastAttempt (Nat.zero_le j) hlt)
      exact ⟨ep, j, kind, rfl, hch, hkind⟩
    · -- the last attempt failed too, or the role would not hand over
      rw [handsOver, errorOf, hep, Option.bind_some, streamOne_eq] at h
      cases hend : (attemptAt w role ep (lastTry w role ep)).2 with
      | failed kind => exact ⟨ep, _, kind, rfl, hch, hend⟩
      | complete | rejected | raised => simp [hend] at h

/-- The chunks of a request that completes: those of failed attempts, then the reply. -/
theorem chunksOf_asked {role r : OllamaRoleKey} {pre post : List OllamaRoleKey}
    {ep : OllamaModelEndpoint} (hpath : c.fallbackPath role = pre ++ r :: post)
    (hpre : ∀ q ∈ pre, c.handsOver w req q = true) (hep : c.endpoints.lookup r = some ep)
    (hcomplete : (streamOne w req r ep).2 = .complete) :
    ∃ early, chunksOf ((throughFirst (c.handsOver w req) (c.fallbackPath role)).flatMap
        (c.roleEffects w req)) = early ++ (attemptAt w r ep (lastTry w r ep)).1 ∧
      ∀ ch ∈ early, ∃ q epq j kind, c.endpoints.lookup q = some epq ∧
        ch ∈ (attemptAt w q epq j).1 ∧ (attemptAt w q epq j).2 = .failed kind := by
  have happ : ∀ xs ys, chunksOf (xs ++ ys) = chunksOf xs ++ chunksOf ys := fun _ _ =>
    List.filterMap_append
  refine ⟨chunksOf (pre.flatMap (c.roleEffects w req)) ++
    (List.range (lastTry w r ep)).flatMap fun j => (attemptAt w r ep j).1, ?_, fun ch hch => ?_⟩
  · rw [hpath, throughFirst_append_cons hpre (handsOver_eq_false_of_complete hep hcomplete),
      List.flatMap_append, happ, List.flatMap_singleton, chunksOf_roleEffects hep,
      List.range_succ, List.flatMap_append, List.flatMap_singleton, List.append_assoc]
  · rcases List.mem_append.mp hch with hch | hch
    · rw [chunksOf, List.filterMap_flatMap] at hch
      obtain ⟨q, hq, hch⟩ := List.mem_flatMap.mp hch
      obtain ⟨epq, j, kind, h⟩ := failed_of_mem_chunks (hpre q hq) hch
      exact ⟨q, epq, j, kind, h⟩
    · obtain ⟨j, hj, hch⟩ := List.mem_flatMap.mp hch
      obtain ⟨kind, hkind⟩ := (settles_eq_false_iff w r ep).mp
        (not_settles_of_lt_lastAttempt (Nat.zero_le j) (List.mem_range.mp hj))
      exact ⟨r, ep, j, kind, hep, hch, hkind⟩

/-- A request completes exactly when some role on its path gives a complete reply within its retries
after all roles before it have handed over. The caller then reads that reply behind whatever chunks
the failed attempts gave, so the text is the reply's own exactly when those have none. -/
theorem streamGenerate_complete_iff {role : OllamaRoleKey} (hrole : role ∈ c.endpoints)
    (hoptions : ∀ key ∈ reservedKeys, key ∉ req.options) :
    (c.streamGenerate w role req).2 = some .complete ↔
      ∃ pre r post ep k early, c.fallbackPath role = pre ++ r :: post ∧
        (∀ q ∈ pre, c.handsOver w req q = true) ∧ c.endpoints.lookup r = some ep ∧
        k ≤ ep.maxRetries ∧ (∀ j < k, ∃ kind, (attemptAt w r ep j).2 = .failed kind) ∧
        (attemptAt w r ep k).2 = .complete ∧
        chunksOf (c.streamGenerate w role req).1 = early ++ (attemptAt w r ep k).1 ∧
        (∀ ch ∈ early, ∃ q epq j kind, c.endpoints.lookup q = some epq ∧
          ch ∈ (attemptAt w q epq j).1 ∧ (attemptAt w q epq j).2 = .failed kind) ∧
        (textOf (chunksOf (c.streamGenerate w role req).1) = textOf (attemptAt w r ep k).1 ↔
          ∀ ch ∈ early, ch.text = "") := by
  rw [streamGenerate_eq c w req hrole hoptions, Option.some_inj, resolve_eq_complete_iff]
  constructor
  · rintro ⟨pre, r, post, ep, hpath, hpre, hep, hcomplete⟩
    obtain ⟨hle, hbefore, hlast⟩ := (complete_iff_lastTry w req r ep).mp ⟨rfl, hcomplete⟩
    obtain ⟨early, hchunks, hearly⟩ := chunksOf_asked hpath hpre hep hcomplete
    refine ⟨pre, r, post, ep, _, early, hpath, hpre, hep, hle, hbefore, hlast, hchunks, hearly, ?_⟩
    rw [hchunks]
    exact textOf_append_eq_iff
  · rintro ⟨pre, r, post, ep, k, -, hpath, hpre, hep, hle, hbefore, hlast, -⟩
    exact ⟨pre, r, post, ep, hpath, hpre, hep,
      ((complete_iff_lastTry w req r ep).mpr ⟨hle, hbefore, hlast⟩).2⟩

/-- The first daemon breaks off after a chunk, the second answers. -/
def secondAnswers : Outside where
  reply role _ := .answered 200 ["line"] (if role = "qwen" then some .timeout else none)
  wallClockNs _ := 0
  loads _ := some (.obj [("response", .str "flat"), ("done", .bool true)])
  str _ := ""

/-- The caller reads the text of both. -/
theorem standard_complete :
    (standard.streamGenerate secondAnswers "qwen" hello).2 = some .complete ∧
      textOf (chunksOf (standard.streamGenerate secondAnswers "qwen" hello).1) = "flatflat" := by
  refine ⟨(streamGenerate_complete_iff (by decide) (by decide)).mpr
    ⟨["qwen"], "deepseek", ["mistral", "phi"], defaultEndpoint 60 (by decide), 0,
      (attemptAt secondAnswers "qwen" (defaultEndpoint 30 (by decide)) 0).1, by decide,
      by decide, rfl, Nat.le_refl 0, fun j hj => absurd hj (Nat.not_lt_zero j), rfl, rfl, ?_, ?_⟩,
    by decide +kernel⟩
  · exact fun ch hch => ⟨"qwen", defaultEndpoint 30 (by decide), 0, .timeout, rfl, hch, rfl⟩
  · exact iff_of_false (by decide +kernel) (by decide +kernel)

end OllamaClient

end Hedge.Ai.Ollama
