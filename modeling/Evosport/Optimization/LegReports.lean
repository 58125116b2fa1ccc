/-
Which replies a parallel execution reports and hedges exactly.

A leg is reported if its reply bears its status out: an accepted order comes with a size and a price
of its own, and one that is not accepted without a fill.  An execution of reported legs is exact as
long as no partial fill hides behind legs that are all accepted, and a leg that is not reported
spoils an execution already beside a plain one (`reportedExactly_of_reported`).
-/
import Evosport.Optimization.ParallelExecutor

namespace Evosport.Optimization

open Lib Backtest

/-- The reply bears out the status of its order: if that counts as filled, the reply gives a size
above zero and a price that an order can have, else it gives no fill. -/
def Reported (reply : Reply) : Prop :=
  if accepted reply then
    0 < reportedSize reply ∧ 0 < reportedPrice reply ∧ reportedPrice reply ≤ 1
  else reportedSize reply ≤ 0 ∧ reportedSize reply * reportedPrice reply = 0

instance (reply : Reply) : Decidable (Reported reply) :=
  inferInstanceAs (Decidable (if accepted reply then
    0 < reportedSize reply ∧ 0 < reportedPrice reply ∧ reportedPrice reply ≤ 1
  else reportedSize reply ≤ 0 ∧ reportedSize reply * reportedPrice reply = 0))

/-- The leg is filled completely. -/
def Whole (call : ExecutionLeg × Reply) : Prop := call.1.shares ≤ reportedSize call.2

instance (call : ExecutionLeg × Reply) : Decidable (Whole call) :=
  inferInstanceAs (Decidable (_ ≤ _))

/-- Of several legs that are all accepted each is filled completely. -/
def WholeUnlessRefused (calls : List (ExecutionLeg × Reply)) : Prop :=
  (∃ call ∈ calls, accepted call.2 = false) ∨ calls.length ≤ 1 ∨ ∀ call ∈ calls, Whole call

instance (calls : List (ExecutionLeg × Reply)) : Decidable (WholeUnlessRefused calls) :=
  inferInstanceAs (Decidable (_ ∨ _ ∨ _))

/-- A reply that leaves nothing to put in and nothing to pass over: to an accepted order the whole
size at the leg's own price, else an exception. -/
def plainReply (leg : ExecutionLeg) (filled : Bool) : Reply :=
  if filled then
    .object { status := "filled", filledSize := some leg.shares, averageFillPrice := some leg.price }
  else .raised "rejected"

section Legs

variable {leg : ExecutionLeg} {reply : Reply}

lemma shares_pos (hvalid : validateLeg leg = none) : 0 < leg.shares := by
  obtain ⟨-, hprice, -, hsize⟩ := validateLeg_eq_none.1 hvalid
  exact div_pos hsize hprice

/-- A size above zero is given as such. -/
lemma sizeTaken_of_pos (h : 0 < reportedSize reply) :
    sizeTaken leg reply = some (reportedSize reply) ∧ sizeUnreadable reply = false := by
  cases reply with
  | object order => exact ⟨congrArg some (if_neg h.ne'), rfl⟩
  | dict order =>
    obtain ⟨_, _, _, _, fillPrice, fillSize, _⟩ := order
    rcases fillSize with _ | _ | size
    · exact absurd h (lt_irrefl 0)
    · exact absurd h (lt_irrefl 0)
    · exact ⟨rfl, by simp [sizeUnreadable]⟩
  | other => exact absurd h (lt_irrefl 0)
  | raised message => exact absurd h (lt_irrefl 0)

/-- Beside a size above zero nothing is put in exactly if there is a price. -/
lemma putIn_eq_zero_iff (hvalid : validateLeg leg = none) (h : 0 < reportedSize reply) :
    putIn leg reply = 0 ↔ reportedPrice reply ≠ 0 := by
  obtain ⟨-, hprice, -, hsize⟩ := validateLeg_eq_none.1 hvalid
  cases reply with
  | object order =>
    have hs : order.filledSize.getD 0 ≠ 0 := h.ne'
    rw [putIn, reportedPrice]
    by_cases hp : order.averageFillPrice.getD 0 = 0
    · simp [hs, hp, hprice.ne']
    · simp [hs, hp]
  | dict order =>
    obtain ⟨_, _, _, _, fillPrice, fillSize, _⟩ := order
    have hs : (fillSize.getD none).getD 0 ≠ 0 := h.ne'
    rcases fillSize with _ | size
    · exact absurd rfl hs
    have hs : size.getD 0 ≠ 0 := hs
    rcases fillPrice with _ | price
    · simp [putIn, reportedPrice, hs, hprice.ne']
    · by_cases hp : price.getD 0 = 0
      · simp [putIn, reportedPrice, hp, hsize.ne']
      · simp [putIn, reportedPrice, hp]
  | other => exact absurd h (lt_irrefl 0)
  | raised message => exact absurd h (lt_irrefl 0)

lemma priceTaken_of_ne_zero (h : reportedPrice reply ≠ 0) :
    priceTaken leg reply = reportedPrice reply :=
  if_neg h

lemma Reported.of_accepted (h : Reported reply) (haccepted : accepted reply = true) :
    0 < reportedSize reply ∧ 0 < reportedPrice reply ∧ reportedPrice reply ≤ 1 := by
  rwa [Reported, if_pos haccepted] at h

lemma Reported.of_refused (h : Reported reply) (hrefused : accepted reply = false) :
    reportedSize reply ≤ 0 ∧ reportedSize reply * reportedPrice reply = 0 := by
  rwa [Reported, if_neg (by simp [hrefused])] at h

/-- Of reported legs the accepted ones are those with a fill. -/
lemma Reported.accepted_eq (h : Reported reply) :
    accepted reply = decide (0 < reportedSize reply) := by
  cases haccepted : accepted reply with
  | true => exact (decide_eq_true (h.of_accepted haccepted).1).symm
  | false => exact (decide_eq_false (not_lt.2 (h.of_refused haccepted).1)).symm

lemma accepted_plainReply (leg : ExecutionLeg) (filled : Bool) :
    accepted (plainReply leg filled) = filled := by
  cases filled with
  | true => simp [plainReply, accepted]
  | false => rfl

lemma reported_plainReply (hvalid : validateLeg leg = none) (filled : Bool) :
    Reported (plainReply leg filled) := by
  obtain ⟨-, hprice, hone, -⟩ := validateLeg_eq_none.1 hvalid
  rw [Reported, accepted_plainReply]
  cases filled with
  | true => exact ⟨shares_pos hvalid, hprice, hone⟩
  | false => exact ⟨le_rfl, zero_mul _⟩

end Legs

/-! ## Reported legs -/

section Calls

variable {calls : List (ExecutionLeg × Reply)} {hedgeOnPartial : Bool}
  (hvalid : ∀ call ∈ calls, validateLeg call.1 = none) (h : ∀ call ∈ calls, Reported call.2)

include h

lemma acceptedCalls_eq_filledCalls : acceptedCalls calls = filledCalls calls :=
  List.filter_congr fun call hcall => (h call hcall).accepted_eq

include hvalid

lemma balanced_of_reported : ((acceptedCalls calls).map fun call => putIn call.1 call.2).sum =
    ((refusedCalls calls).map fun call => reportedSize call.2 * reportedPrice call.2).sum := by
  rw [List.sum_eq_zero, List.sum_eq_zero]
  · intro x hx
    obtain ⟨call, hcall, rfl⟩ := List.mem_map.1 hx
    obtain ⟨hmem, hrefused⟩ := List.mem_filter.1 hcall
    exact ((h call hmem).of_refused (by simpa using hrefused)).2
  · intro x hx
    obtain ⟨call, hcall, rfl⟩ := List.mem_map.1 hx
    obtain ⟨hmem, haccepted⟩ := List.mem_filter.1 hcall
    obtain ⟨hsize, hprice, -⟩ := (h call hmem).of_accepted haccepted
    exact (putIn_eq_zero_iff (hvalid call hmem) hsize).2 hprice.ne'

/-- Beside a leg that is not accepted, the legs are exposed exactly if some leg is. -/
lemma exposed_iff_of_refused {refused : ExecutionLeg × Reply} (hmem : refused ∈ calls)
    (hrefused : accepted refused.2 = false) : Exposed calls ↔ acceptedCalls calls ≠ [] := by
  constructor
  · rintro ⟨i, -, -, hfilled, -⟩ hnone
    have hcall : calls[i] ∈ acceptedCalls calls := by
      rw [acceptedCalls_eq_filledCalls h]
      exact List.mem_filter.2 ⟨List.getElem_mem i.isLt, decide_eq_true hfilled⟩
    rw [hnone] at hcall
    cases hcall
  · intro hsome
    obtain ⟨call, hcall⟩ := List.exists_mem_of_ne_nil _ hsome
    obtain ⟨hcall, haccepted⟩ := List.mem_filter.1 hcall
    obtain ⟨i, hi, rfl⟩ := List.getElem_of_mem hcall
    obtain ⟨j, hj, rfl⟩ := List.getElem_of_mem hmem
    refine ⟨⟨i, hi⟩, ⟨j, hj⟩, ?_, ((h _ hcall).of_accepted haccepted).1,
      ((h _ hmem).of_refused hrefused).1.trans_lt (shares_pos (hvalid _ hmem))⟩
    rintro heq
    obtain rfl := congrArg Fin.val heq
    simp only [hrefused] at haccepted
    cases haccepted

omit hvalid in
/-- Of several legs that are all accepted, each filled in part at least, none is exposed exactly if
all are filled completely. -/
lemma not_exposed_iff_of_accepted (hall : ∀ call ∈ calls, accepted call.2 = true) :
    ¬ Exposed calls ↔ calls.length ≤ 1 ∨ ∀ call ∈ calls, Whole call := by
  have hsize : ∀ call ∈ calls, 0 < reportedSize call.2 := fun call hcall =>
    ((h call hcall).of_accepted (hall call hcall)).1
  constructor
  · intro hnot
    refine or_iff_not_imp_left.2 fun hlength call hcall => ?_
    by_contra hpartial
    obtain ⟨j, hj, rfl⟩ := List.getElem_of_mem hcall
    -- another leg, which is filled like all of them
    obtain ⟨i, hi, hne⟩ : ∃ i < calls.length, i ≠ j :=
      ⟨if j = 0 then 1 else 0, by split <;> omega, by split <;> omega⟩
    exact hnot ⟨⟨i, hi⟩, ⟨j, hj⟩, fun heq => hne (congrArg Fin.val heq),
      hsize _ (List.getElem_mem hi), not_le.1 hpartial⟩
  · rintro hwhole ⟨i, j, hne, -, hpartial⟩
    rcases hwhole with hlength | hwhole
    · exact hne (Fin.ext (by omega))
    · exact hpartial.not_ge (hwhole _ (List.getElem_mem j.isLt))

/-- Reported legs are accounted for exactly if no partial fill hides behind accepted legs. -/
lemma accounted_iff : FillsAccounted calls hedgeOnPartial ↔ WholeUnlessRefused calls := by
  have hexposed : (Mixed calls ↔ Exposed calls) ↔ WholeUnlessRefused calls := by
    by_cases hrefused : ∃ call ∈ calls, accepted call.2 = false
    · obtain ⟨refused, hmem, hrefused⟩ := hrefused
      have hne : refusedCalls calls ≠ [] :=
        List.ne_nil_of_mem (List.mem_filter.2 ⟨hmem, by simp [hrefused]⟩)
      rw [Mixed, and_iff_left hne, exposed_iff_of_refused hvalid h hmem hrefused]
      exact iff_of_true Iff.rfl (.inl ⟨refused, hmem, hrefused⟩)
    · have hall : ∀ call ∈ calls, accepted call.2 = true := fun call hcall =>
        Bool.eq_true_of_not_eq_false fun hfalse => hrefused ⟨call, hcall, hfalse⟩
      have hnone : ¬ Mixed calls := by
        rintro ⟨-, hsome⟩
        obtain ⟨call, hcall⟩ := List.exists_mem_of_ne_nil _ hsome
        obtain ⟨hcall, hfalse⟩ := List.mem_filter.1 hcall
        rw [hall call hcall] at hfalse
        cases hfalse
      rw [WholeUnlessRefused, or_iff_right hrefused, ← not_exposed_iff_of_accepted h hall]
      exact ⟨fun hiff hexposed => hnone (hiff.2 hexposed),
        fun hnot => iff_of_false hnone hnot⟩
  have htaken : ∀ call ∈ acceptedCalls calls,
      sizeTaken call.1 call.2 = some (reportedSize call.2) ∧ sizeUnreadable call.2 = false ∧
        0 < priceTaken call.1 call.2 ∧ priceTaken call.1 call.2 ≤ 1 := by
    intro call hcall
    obtain ⟨hmem, haccepted⟩ := List.mem_filter.1 hcall
    obtain ⟨hsize, hprice⟩ := (h call hmem).of_accepted haccepted
    obtain ⟨htaken, hreadable⟩ := @sizeTaken_of_pos call.1 call.2 hsize
    rw [priceTaken_of_ne_zero hprice.1.ne']
    exact ⟨htaken, hreadable, hprice⟩
  rw [← hexposed]
  constructor
  · exact FillsAccounted.exposed
  · intro hmixed
    refine ⟨fun call hcall => by simp [(htaken call hcall).2.1], balanced_of_reported hvalid h,
      hmixed, fun _ => ⟨?_, fun call hcall => (htaken call hcall).2.2⟩⟩
    rw [← acceptedCalls_eq_filledCalls h]
    exact List.map_congr_left fun call hcall => by rw [(htaken call hcall).1]

end Calls

/-! ## A leg beside a plain one -/

section Beside

variable {leg plain : ExecutionLeg} {reply : Reply}

/-- A leg whose reply does not bear its status out is not accounted for beside a plain leg of the
other status. -/
lemma reported_of_accounted (hvalid : validateLeg leg = none) (hplain : validateLeg plain = none)
    (h : FillsAccounted [(leg, reply), (plain, plainReply plain !accepted reply)] true) :
    Reported reply := by
  have hstatus := accepted_plainReply plain !accepted reply
  have hreported := reported_plainReply hplain !accepted reply
  cases haccepted : accepted reply with
  | true =>
    rw [haccepted, Bool.not_true] at h hstatus
    have hcalls : acceptedCalls [(leg, reply), (plain, plainReply plain false)] = [(leg, reply)] := by
      simp [acceptedCalls, haccepted, hstatus]
    have hrefused : refusedCalls [(leg, reply), (plain, plainReply plain false)] =
        [(plain, plainReply plain false)] := by
      simp [refusedCalls, haccepted, hstatus]
    have hmixed : Mixed [(leg, reply), (plain, plainReply plain false)] := by
      simp [Mixed, hcalls, hrefused]
    -- the plain leg has no fill, so this one must have
    have hsize : 0 < reportedSize reply := by
      obtain ⟨⟨i, hi⟩, j, -, hfilled, -⟩ := h.exposed.1 hmixed
      rcases i with _ | i
      · exact hfilled
      · obtain rfl : i = 0 := by
          simp only [List.length_cons, List.length_nil] at hi
          omega
        exact absurd hfilled (lt_irrefl 0)
    have hput : putIn leg reply = 0 := by
      have hbalanced := h.balanced
      rw [hcalls, hrefused] at hbalanced
      simpa [plainReply, reportedSize] using hbalanced
    have hprice := (putIn_eq_zero_iff hvalid hsize).1 hput
    have htaken := (h.closed ⟨hmixed, rfl⟩).2 (leg, reply) (hcalls ▸ List.mem_singleton_self _)
    rw [priceTaken_of_ne_zero hprice] at htaken
    rw [Reported, if_pos haccepted]
    exact ⟨hsize, htaken⟩
  | false =>
    rw [haccepted, Bool.not_false] at h hstatus hreported
    have hcalls : acceptedCalls [(leg, reply), (plain, plainReply plain true)] =
        [(plain, plainReply plain true)] := by
      simp [acceptedCalls, haccepted, hstatus]
    have hrefused : refusedCalls [(leg, reply), (plain, plainReply plain true)] =
        [(leg, reply)] := by
      simp [refusedCalls, haccepted, hstatus]
    have hmixed : Mixed [(leg, reply), (plain, plainReply plain true)] := by
      simp [Mixed, hcalls, hrefused]
    obtain ⟨hsize, hprice, -⟩ := hreported.of_accepted hstatus
    have hput : putIn plain (plainReply plain true) = 0 :=
      (putIn_eq_zero_iff hplain hsize).2 hprice.ne'
    have hzero : reportedSize reply * reportedPrice reply = 0 := by
      have hbalanced := h.balanced
      rw [hcalls, hrefused] at hbalanced
      simpa [hput] using hbalanced.symm
    -- one order is closed, and it is that of the plain leg
    have hnone : ¬ 0 < reportedSize reply := by
      intro hfilled
      have hlength := congrArg List.length (h.closed ⟨hmixed, rfl⟩).1
      simp [hcalls, filledCalls, hfilled, hsize] at hlength
    rw [Reported, if_neg (by simp [haccepted])]
    exact ⟨not_lt.1 hnone, hzero⟩

end Beside

section Examples

/-- Ten dollars of each outcome. -/
def bothOutcomes : List ExecutionLeg :=
  [{ tokenId := "yes", side := .buy, price := 1 / 2, sizeUsd := 10 },
    { tokenId := "no", side := .buy, price := 2 / 5, sizeUsd := 10 }]

/-- The first call returns an order, the others fail. -/
def firstOnly (order : OrderObject) (call : ℕ) (_ : ExecutionLeg) : Reply :=
  if call = 0 then .object order else .raised "rejected"

end Examples

end Evosport.Optimization
