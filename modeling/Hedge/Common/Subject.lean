import Mathlib.Data.List.Basic

/-!
# Subjects of a message bus

A subject is a text of tokens with dots between them. A subscription names a pattern: `*` stands for
one token, and `>` at the end for one token or more. The bus delivers a message to a subscription
when the subject matches its pattern.
-/

namespace Hedge.Common

/-- A message on the bus. -/
structure BusMessage where
  subject : String
  payload : List UInt8

/-- The tokens of a subject. -/
def tokensOf (subject : String) : List String :=
  (subject.toList.splitOn '.').map String.ofList

/-- The tokens of a subject match those of a pattern. -/
def tokensMatch : List String → List String → Bool
  | [">"], _ :: _ => true
  | p :: ps, t :: ts => (p = "*" || p = t) && tokensMatch ps ts
  | [], [] => true
  | _, _ => false

/-- A subject matches a pattern. -/
def subjectMatches (pattern subject : String) : Bool :=
  tokensMatch (tokensOf pattern) (tokensOf subject)

/-- The payloads that a subscription receives of some messages. -/
def delivered (pattern : String) (messages : List BusMessage) : List (List UInt8) :=
  (messages.filter fun message => tokensMatch (tokensOf pattern) (tokensOf message.subject)).map
    (·.payload)

@[simp] theorem delivered_nil (pattern : String) : delivered pattern [] = [] := rfl

theorem delivered_cons (pattern : String) (message : BusMessage) (messages : List BusMessage) :
    delivered pattern (message :: messages)
      = (if subjectMatches pattern message.subject then [message.payload] else [])
        ++ delivered pattern messages := by
  rw [delivered, List.filter_cons, subjectMatches]
  split_ifs <;> rfl

/-- A subscription receives what it receives of each of the senders, one after the other. -/
theorem delivered_flatMap {α : Type*} (pattern : String) (sent : α → List BusMessage)
    (as : List α) :
    delivered pattern (as.flatMap sent) = as.flatMap fun a => delivered pattern (sent a) := by
  rw [delivered, List.filter_flatMap, List.map_flatMap]
  rfl

theorem tokensOf_ne_nil (subject : String) : tokensOf subject ≠ [] := by
  rw [tokensOf, ne_eq, List.map_eq_nil_iff]
  exact List.splitOn_ne_nil _ _

/-- A dot separates the tokens before it from those after it. -/
theorem tokensOf_append_dot (s t : String) :
    tokensOf (s ++ "." ++ t) = tokensOf s ++ tokensOf t := by
  have hdot : ".".toList = ['.'] := rfl
  rw [tokensOf, String.toList_append, String.toList_append, hdot, List.append_assoc,
    List.singleton_append, List.splitOn_append_cons_self, List.map_append]
  rfl

/-- A text without a dot is one token. -/
theorem tokensOf_of_no_dot {s : String} (h : '.' ∉ s.toList) : tokensOf s = [s] := by
  rw [tokensOf, List.splitOn_eq_singleton h, List.map_singleton, String.ofList_toList]

/-! ## Patterns -/

/-- The tokens of a pattern before its `>`. -/
def literalPart (pattern : List String) : List String := pattern.takeWhile (· ≠ ">")

theorem tokensMatch_nil {p : String} {ps : List String} : tokensMatch (p :: ps) [] = false := by
  simp [tokensMatch]

theorem tokensMatch_cons {p t : String} {ps ts : List String} (hp : p ≠ ">") :
    tokensMatch (p :: ps) (t :: ts) = ((p = "*" || p = t) && tokensMatch ps ts) := by
  simp [tokensMatch, hp]

/-- A pattern has the subject that reads as it does. -/
theorem tokensMatch_self (ts : List String) : tokensMatch ts ts = true := by
  induction ts with
  | nil => rfl
  | cons t ts ih =>
    by_cases ht : t = ">"
    · subst ht
      cases ts with
      | nil => rfl
      | cons u us => simp [tokensMatch, ih]
    · rw [tokensMatch_cons ht, ih]
      simp

theorem subjectMatches_self (subject : String) : subjectMatches subject subject = true :=
  tokensMatch_self _

/-- A pattern that ends with `>` has every subject that goes on from where it stands. -/
theorem subjectMatches_rest {stem : String} (hplain : ">" ∉ tokensOf stem) (rest : String) :
    subjectMatches (stem ++ "." ++ ">") (stem ++ "." ++ rest) = true := by
  have hlast : tokensOf ">" = [">"] := by decide
  obtain ⟨token, tokens, htokens⟩ := List.exists_cons_of_ne_nil (tokensOf_ne_nil rest)
  rw [subjectMatches, tokensOf_append_dot, tokensOf_append_dot, hlast, htokens]
  generalize tokensOf stem = stemTokens at hplain
  induction stemTokens with
  | nil => rfl
  | cons t ts ih =>
    rw [List.mem_cons, not_or] at hplain
    rw [List.cons_append, List.cons_append, tokensMatch_cons (Ne.symm hplain.1), ih hplain.2]
    simp

/-- A subject that matches a pattern without `*` starts with its literal part. -/
theorem exists_eq_literalPart_append {ps ts : List String} (hstar : "*" ∉ ps)
    (h : tokensMatch ps ts = true) : ∃ rest, ts = literalPart ps ++ rest := by
  induction ps generalizing ts with
  | nil => exact ⟨ts, rfl⟩
  | cons p ps ih =>
    by_cases hp : p = ">"
    · refine ⟨ts, ?_⟩
      rw [literalPart, List.takeWhile_cons_of_neg (by simp [hp]), List.nil_append]
    · have hne : p ≠ "*" := fun heq => hstar (heq ▸ List.mem_cons_self)
      cases ts with
      | nil => rw [tokensMatch_nil] at h; cases h
      | cons t ts =>
        have hboth : p = t ∧ tokensMatch ps ts = true := by
          simpa [tokensMatch_cons hp, hne] using h
        obtain ⟨rest, hrest⟩ := ih (fun hmem => hstar (List.mem_cons_of_mem _ hmem)) hboth.2
        refine ⟨rest, ?_⟩
        rw [literalPart, List.takeWhile_cons_of_pos (by simp [hp]), hboth.1, List.cons_append]
        exact congrArg (t :: ·) hrest

/-- A token of a pattern that stands for itself. -/
def isLiteral (p : String) : Bool := p ≠ "*" && p ≠ ">"

/-- Two patterns ask for different tokens at some place, or for different numbers of tokens. -/
def tokensApart : List String → List String → Bool
  | [], [] => false
  | [], _ :: _ | _ :: _, [] => true
  | p :: ps, q :: qs =>
    (isLiteral p && isLiteral q && p ≠ q) || (p ≠ ">" && q ≠ ">" && tokensApart ps qs)

/-- No subject matches two patterns that are apart. -/
theorem not_tokensMatch_of_tokensApart {ps qs ts : List String} (h : tokensApart ps qs = true)
    (hp : tokensMatch ps ts = true) : tokensMatch qs ts = false := by
  induction ps generalizing qs ts with
  | nil =>
    cases ts with
    | nil => cases qs <;> simp_all [tokensApart, tokensMatch_nil]
    | cons t ts => simp [tokensMatch] at hp
  | cons p ps ih =>
    cases ts with
    | nil =>
      rw [tokensMatch_nil] at hp
      cases hp
    | cons t ts =>
      cases qs with
      | nil => rfl
      | cons q qs =>
        simp only [tokensApart, isLiteral, Bool.or_eq_true, Bool.and_eq_true, decide_eq_true_eq,
          ne_eq] at h
        rcases h with ⟨⟨⟨hstar, hrest⟩, hstar', hrest'⟩, hne⟩ | ⟨⟨hrest, hrest'⟩, happart⟩
        · rw [tokensMatch_cons hrest] at hp
          have hpt : p = t := by simpa [hstar] using (Bool.and_eq_true_iff.mp hp).1
          have hqt : q ≠ t := fun hq => hne (hpt.trans hq.symm)
          rw [tokensMatch_cons hrest']
          simp [hstar', hqt]
        · rw [tokensMatch_cons hrest] at hp
          rw [tokensMatch_cons hrest', ih happart (Bool.and_eq_true_iff.mp hp).2, Bool.and_false]

/-- Of subscriptions to patterns that are apart from each other, at most one receives a message. -/
theorem length_filter_subjectMatches_le {patterns : List String}
    (h : patterns.Pairwise fun p q => tokensApart (tokensOf p) (tokensOf q) = true)
    (subject : String) : (patterns.filter (subjectMatches · subject)).length ≤ 1 := by
  have hpair := h.filter (subjectMatches · subject)
  have hmatch : ∀ p ∈ patterns.filter (subjectMatches · subject), subjectMatches p subject = true :=
    fun p hp => (List.mem_filter.mp hp).2
  rcases hfilter : patterns.filter (subjectMatches · subject) with _ | ⟨p, _ | ⟨q, rest⟩⟩
  · exact Nat.zero_le _
  · exact Nat.le_refl _
  · rw [hfilter] at hpair hmatch
    have hapart := List.rel_of_pairwise_cons hpair List.mem_cons_self
    have hq : subjectMatches q subject = true :=
      hmatch q (List.mem_cons_of_mem _ List.mem_cons_self)
    have hnot := not_tokensMatch_of_tokensApart hapart (hmatch p List.mem_cons_self)
    exact absurd (hq.symm.trans hnot) (by decide)

end Hedge.Common
