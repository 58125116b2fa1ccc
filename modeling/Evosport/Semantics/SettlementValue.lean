/-
The settlement of a football market conserves value.

The two tokens of a binding are priced from one record, so that their prices are a win and a loss,
or two halves of a void match, or missing together (`Conserved`).  The record reaches the tokens
through their metadata and never prices a token outside the pair (`settlements_conserved`).  An
empty text counts as a missing id everywhere on the way: a market without an id has no record, and a
winner without an id is no winner (`namelessWinner_unpriced`).
-/
import Evosport.Semantics.Football
import Mathlib.Data.List.Induction
import Mathlib.Tactic.NormNum

namespace Evosport.Semantics

open Lib

variable {records : Dict String SettlementRecord} {b : FootballDatasetBinding}

/-! ## The loop over the metadata -/

/-- What the loop stores under a token comes from metadata of that token. -/
lemma mem_of_get?_build {tokenMeta : List TokenMarketMeta} {tokenId : String}
    {s : TokenSettlement} (h : (buildTokenSettlements tokenMeta records).get? tokenId = some s) :
    ∃ m ∈ tokenMeta, m.tokenId = tokenId ∧ tokenSettlement records m = some s := by
  induction tokenMeta using List.reverseRecOn with
  | nil => cases h
  | append_singleton ms m ih =>
    have hold : (buildTokenSettlements ms records).get? tokenId = some s →
        ∃ m' ∈ ms ++ [m], m'.tokenId = tokenId ∧ tokenSettlement records m' = some s := by
      intro hget
      obtain ⟨m', hmem, hm'⟩ := ih hget
      exact ⟨m', List.mem_append_left _ hmem, hm'⟩
    rw [buildTokenSettlements, List.foldl_append, List.foldl_cons, List.foldl_nil,
      ← buildTokenSettlements, settleToken] at h
    cases hm : tokenSettlement records m with
    | none => exact hold (by simpa [hm] using h)
    | some s' =>
      simp only [hm, Dict.get?_set] at h
      split at h
      · next htoken => exact ⟨m, by simp, htoken, hm.trans h⟩
      · exact hold h

/-- A token with metadata gets what all of its metadata agree on. -/
lemma get?_build {tokenMeta : List TokenMarketMeta} {tokenId : String}
    {Q : TokenSettlement → Prop}
    (hall : ∀ m ∈ tokenMeta, m.tokenId = tokenId → ∃ s, tokenSettlement records m = some s ∧ Q s)
    (hex : ∃ m ∈ tokenMeta, m.tokenId = tokenId) :
    ∃ s, (buildTokenSettlements tokenMeta records).get? tokenId = some s ∧ Q s := by
  induction tokenMeta using List.reverseRecOn with
  | nil => simp at hex
  | append_singleton ms m ih =>
    rw [buildTokenSettlements, List.foldl_append, List.foldl_cons, List.foldl_nil,
      ← buildTokenSettlements, settleToken]
    by_cases hm : m.tokenId = tokenId
    · obtain ⟨s, hs, hq⟩ := hall m (by simp) hm
      exact ⟨s, by simp [hs, hm], hq⟩
    · have hex' : ∃ m ∈ ms, m.tokenId = tokenId := by
        obtain ⟨m', hmem, hm'⟩ := hex
        obtain hmem | hmem := List.mem_append.1 hmem
        · exact ⟨m', hmem, hm'⟩
        · exact absurd ((List.mem_singleton.1 hmem) ▸ hm') hm
      obtain ⟨s, hs, hq⟩ := ih (fun m' hmem => hall m' (List.mem_append_left _ hmem)) hex'
      refine ⟨s, ?_, hq⟩
      cases hset : tokenSettlement records m with
      | none => exact hs
      | some s' => rw [Dict.get?_set_of_ne _ _ hm]; exact hs

/-- A settlement is labelled with the market whose record it was made from. -/
lemma tokenSettlement_eq_some {m : TokenMarketMeta} {s : TokenSettlement}
    (h : tokenSettlement records m = some s) :
    ∃ rec, records.get? m.cond = some rec ∧ settlePrice rec m.tokenId = some s.settlePrice ∧
      s.conditionId = some m.cond := by
  obtain ⟨rec, hrec, h⟩ := Option.bind_eq_some_iff.1 h
  obtain ⟨price, hprice, h⟩ := Option.bind_eq_some_iff.1 h
  dsimp only at h
  split at hrec
  · cases hrec
  · split at h
    · cases h
    · cases h
      exact ⟨rec, hrec, hprice, rfl⟩

/-! ## The record of a binding -/

namespace FootballDatasetBinding

lemma side_eq (b : FootballDatasetBinding) : b.contract.side = "over" := by
  by_contra hne
  have hvalid := b.validated
  unfold validateBinding at hvalid
  split_ifs at hvalid

/-- The match was played to its end with more counted goals than the threshold. -/
def FinishedOver (b : FootballDatasetBinding) : Prop :=
  b.result.status = .finished ∧ b.contract.threshold < (countedGoals b.contract b.result : ℚ)

lemma outcome_eq_yes : b.outcome = .yes ↔ b.FinishedOver := by
  have hside := b.side_eq
  unfold outcome settleTotalGoals FinishedOver PostponedAction.outcome
  cases b.result.status <;> simp only [hside, if_true, true_and, false_and, reduceCtorEq] <;>
    split <;> simp_all

/-- A token of the pair. -/
def Holds (b : FootballDatasetBinding) (tokenId : String) : Prop :=
  tokenId = b.contract.yesTokenId ∨ tokenId = b.contract.noTokenId

instance (tokenId : String) : Decidable (b.Holds tokenId) := inferInstanceAs (Decidable (_ ∨ _))

/-- The price of a token of the pair. -/
def payoff (b : FootballDatasetBinding) (tokenId : String) : Option ℚ :=
  match b.outcome with
  | .yes => some (if tokenId = b.contract.yesTokenId then 1 else 0)
  | .no => some (if tokenId = b.contract.noTokenId then 1 else 0)
  | .void => some (1 / 2)
  | .unresolved => none

lemma isVoid_label (o : SettlementOutcome) : isVoid (some o.label) = decide (o = .void) := by
  cases o <;> decide +kernel

/-- The record prices a token of the pair at its payoff, as long as the winner has an id. -/
lemma settlePrice_expected (hwinner : b.winningTokenId ≠ some "") {tokenId : String}
    (hpair : b.Holds tokenId) :
    settlePrice b.expectedFootballSettlement tokenId = some (b.payoff tokenId) := by
  have hmem : tokenId ∈ b.expectedFootballSettlement.tokenIds := by
    simpa [expectedFootballSettlement, Holds] using hpair
  have hvoid : isVoid b.expectedFootballSettlement.winningOutcome = decide (b.outcome = .void) :=
    isVoid_label b.outcome
  unfold settlePrice payoff
  simp only [hmem, hvoid, not_true_eq_false, and_false, if_false]
  cases ho : b.outcome <;> simp_all [expectedFootballSettlement, winningTokenId, truthy]

/-- The record prices no token outside the pair. -/
lemma settlePrice_foreign {tokenId : String} (hpair : ¬ b.Holds tokenId) {price : Option ℚ}
    (h : settlePrice b.expectedFootballSettlement tokenId = some price) : price = none := by
  have hforeign : tokenId ∉ b.expectedFootballSettlement.tokenIds := by
    simpa [expectedFootballSettlement, Holds] using hpair
  have hne : b.expectedFootballSettlement.tokenIds ≠ [] := by simp [expectedFootballSettlement]
  unfold settlePrice at h
  simp only [hforeign, hne, ne_eq, not_false_eq_true, and_self, if_true] at h
  split at h
  · cases h
  · split at h
    · cases h
    · exact (Option.some.inj h).symm

/-! ## Conservation -/

/-- The prices of the two tokens, as the outcome of the match asks for them. -/
structure Conserved (b : FootballDatasetBinding) (yes no : Option ℚ) : Prop where
  /-- Once decided, the prices are a win and a loss or two halves. -/
  total : b.outcome ≠ .unresolved → ∃ p q, yes = some p ∧ no = some q ∧
    p ∈ ({0, 1 / 2, 1} : Set ℚ) ∧ q ∈ ({0, 1 / 2, 1} : Set ℚ) ∧ p + q = 1
  halves : b.outcome = .void ↔ yes = some (1 / 2) ∧ no = some (1 / 2)
  unpriced : b.outcome = .unresolved → yes = none ∧ no = none
  won : yes = some 1 ↔ b.FinishedOver

/-- The payoffs of distinct tokens conserve value. -/
lemma conserved_payoff (hne : b.contract.yesTokenId ≠ b.contract.noTokenId) :
    b.Conserved (b.payoff b.contract.yesTokenId) (b.payoff b.contract.noTokenId) := by
  have hyes := b.outcome_eq_yes
  unfold payoff
  constructor
  · intro hdecided
    cases ho : b.outcome with
    | yes => exact ⟨1, 0, by simp, by simp [hne.symm], by simp, by simp, by norm_num⟩
    | no => exact ⟨0, 1, by simp [hne], by simp, by simp, by simp, by norm_num⟩
    | void => exact ⟨1 / 2, 1 / 2, rfl, rfl, by simp, by simp, by norm_num⟩
    | unresolved => exact absurd ho hdecided
  · cases b.outcome <;> simp [hne]
  · intro hopen
    simp [hopen]
  · rw [← hyes]
    cases b.outcome <;> simp [hne]

/-- The market has an id without blanks around it, under which its record is found. -/
def Named (b : FootballDatasetBinding) : Prop :=
  b.contract.venueMarketId ≠ "" ∧ strip b.contract.venueMarketId = b.contract.venueMarketId

instance : Decidable b.Named := inferInstanceAs (Decidable (_ ∧ _))

/-- Metadata that name the market of a pair give each of its tokens its payoff. -/
lemma tokenSettlement_pair (hwinner : b.winningTokenId ≠ some "")
    (hnamed : b.Named)
    (hrec : records.get? b.contract.venueMarketId = some b.expectedFootballSettlement)
    {m : TokenMarketMeta} (hcond : m.cond = b.contract.venueMarketId) (hpair : b.Holds m.tokenId) :
    ∃ s, tokenSettlement records m = some s ∧ s.settlePrice = b.payoff m.tokenId := by
  unfold tokenSettlement
  rw [hcond, if_neg hnamed.1, hrec, Option.bind_some, settlePrice_expected hwinner hpair,
    Option.bind_some]
  dsimp only
  rw [if_neg (by simp [expectedFootballSettlement])]
  exact ⟨_, rfl, rfl⟩

/-- Settlement conserves value: whatever else is passed along, the two tokens of a binding get
complementary prices, and its record prices no other token. -/
theorem settlements_conserved (b : FootballDatasetBinding)
    (hne : b.contract.yesTokenId ≠ b.contract.noTokenId) (hnamed : b.Named)
    (hwinner : b.winningTokenId ≠ some "") (tokenMeta : List TokenMarketMeta)
    (records : Dict String SettlementRecord)
    (hrec : records.get? b.contract.venueMarketId = some b.expectedFootballSettlement)
    (hyes : ∃ m ∈ tokenMeta, m.tokenId = b.contract.yesTokenId)
    (hno : ∃ m ∈ tokenMeta, m.tokenId = b.contract.noTokenId)
    (hpair : ∀ m ∈ tokenMeta, b.Holds m.tokenId → m.cond = b.contract.venueMarketId) :
    (∃ s t, (buildTokenSettlements tokenMeta records).get? b.contract.yesTokenId = some s ∧
      (buildTokenSettlements tokenMeta records).get? b.contract.noTokenId = some t ∧
      b.Conserved s.settlePrice t.settlePrice) ∧
    ∀ tokenId s, ¬ b.Holds tokenId →
      (buildTokenSettlements tokenMeta records).get? tokenId = some s →
      s.conditionId = some b.contract.venueMarketId → s.settlePrice = none := by
  have hpriced : ∀ tokenId, b.Holds tokenId → (∃ m ∈ tokenMeta, m.tokenId = tokenId) →
      ∃ s, (buildTokenSettlements tokenMeta records).get? tokenId = some s ∧
        s.settlePrice = b.payoff tokenId := by
    intro tokenId hholds hex
    refine get?_build (fun m hmem hm => ?_) hex
    subst hm
    exact tokenSettlement_pair hwinner hnamed hrec (hpair m hmem hholds) hholds
  constructor
  · obtain ⟨s, hs, hsp⟩ := hpriced _ (.inl rfl) hyes
    obtain ⟨t, ht, htp⟩ := hpriced _ (.inr rfl) hno
    refine ⟨s, t, hs, ht, ?_⟩
    rw [hsp, htp]
    exact conserved_payoff hne
  · intro tokenId s hforeign hget hlabel
    obtain ⟨m, -, rfl, hm⟩ := mem_of_get?_build hget
    obtain ⟨rec, hfound, hprice, hcond⟩ := tokenSettlement_eq_some hm
    have hmarket : m.cond = b.contract.venueMarketId := Option.some.inj (hcond.symm.trans hlabel)
    rw [hmarket, hrec] at hfound
    cases hfound
    exact settlePrice_foreign hforeign hprice

/-! ## A finished match -/

/-- Three goals in a match, with the given ids of the market and of its YES token. -/
def threeGoals (venueMarketId yesTokenId : String) : FootballDatasetBinding where
  event := ⟨"event", "football", 60, some 60, .finished⟩
  contract :=
    { eventId := "event", venueMarketId := venueMarketId, yesTokenId := yesTokenId, noTokenId := "NO"
      marketType := .totalGoalsOverUnder, threshold := 5 / 2, side := "over", opensAt := 0
      closesAt := 30, ruleVersion := "v1", settlement := {}, opensAt_lt := by decide
      side_mem := .inl rfl, threshold_pos := by norm_num }
  result := ⟨2, 1, 0, 0, .finished⟩
  resultTime := ⟨180, 181, 182, by decide⟩
  validated := by norm_num [validateBinding, CanonicalSportsEvent.start]

/-- The metadata that `validate_effective_football_evidence` passes along. -/
def pairMeta (b : FootballDatasetBinding) : List TokenMarketMeta :=
  [⟨b.contract.yesTokenId, some b.contract.venueMarketId, none⟩,
    ⟨b.contract.noTokenId, some b.contract.venueMarketId, none⟩]

/-- The one record that it passes along. -/
def ownRecord (b : FootballDatasetBinding) : Dict String SettlementRecord :=
  Dict.empty.set b.contract.venueMarketId b.expectedFootballSettlement

/-- The settlements that it builds. -/
def ownSettlements (b : FootballDatasetBinding) : Dict String TokenSettlement :=
  buildTokenSettlements b.pairMeta b.ownRecord

theorem threeGoals_conserved :
    ∃ s t, (threeGoals "market" "YES").ownSettlements.get? "YES" = some s ∧
      (threeGoals "market" "YES").ownSettlements.get? "NO" = some t ∧
      (threeGoals "market" "YES").Conserved s.settlePrice t.settlePrice :=
  (settlements_conserved (threeGoals "market" "YES") (by decide +kernel) (by decide +kernel)
    (by decide +kernel) (threeGoals "market" "YES").pairMeta (threeGoals "market" "YES").ownRecord
    (Dict.get?_set_self _ _ _) (by decide +kernel) (by decide +kernel) (by decide +kernel)).1

/-- A winner without an id leaves both tokens without a price, and so does a market whose id is
written with a blank. -/
theorem namelessWinner_unpriced :
    ((threeGoals "market" "").contract.yesTokenId ≠ (threeGoals "market" "").contract.noTokenId ∧
      (threeGoals "market" "").outcome = .yes ∧
      ¬ ∃ s t, (threeGoals "market" "").ownSettlements.get? "" = some s ∧
        (threeGoals "market" "").ownSettlements.get? "NO" = some t ∧
        (threeGoals "market" "").Conserved s.settlePrice t.settlePrice) ∧
    (threeGoals " market" "YES").outcome = .yes ∧
      (threeGoals " market" "YES").ownSettlements.get? "YES" = none := by
  refine ⟨⟨by decide +kernel, by decide +kernel, ?_⟩, by decide +kernel, by decide +kernel⟩
  rintro ⟨s, t, hs, -, hconserved⟩
  have hnone : ((threeGoals "market" "").ownSettlements.get? "").bind
      (fun s => s.settlePrice) = none := by
    decide +kernel
  rw [hs, Option.bind_some] at hnone
  obtain ⟨p, -, hp, -⟩ := hconserved.total (by decide +kernel)
  rw [hnone] at hp
  cases hp

end FootballDatasetBinding

end Evosport.Semantics
