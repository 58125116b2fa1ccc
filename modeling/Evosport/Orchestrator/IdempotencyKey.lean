/-
The idempotency keys of CLOB submissions (`services/trader_orchestrator/fast_idempotency.py`).

A key is the digest of the trader, the signal and the leg, joined by bars.  Nothing keeps bars out of
the three, so that two submissions have one text where they consist of the same pieces between bars
and only distribute them differently, and there alone (`identifies_iff`).  An echo of a key is
always brought back to it (`normalizeMetadataForMatch_echo`).
-/
import Evosport.Data.ContentHash
import Evosport.Orchestrator.FastSubmit

namespace Evosport.Orchestrator

open Lib

/-! ## Keys -/

/-- What a key is derived from. -/
structure ClobSubmission where
  traderId : String
  signalId : String
  legId : String := ""

/-- The case tables of the Unicode standard, as far as ASCII goes. -/
structure Lowering where
  lower : String → String
  lower_ascii : ∀ s : String, (∀ c ∈ s.toList, c.toNat < 128) →
    lower s = String.ofList (s.toList.map Char.toLower)

/-- `_KEY_NAMESPACE`, which every hashed text begins with. -/
def keyNamespace : String := "homerun:fast-idempotency:v1"

/-- The key of a submission without a trader or a signal: 32 zero bytes. -/
def bytes32Zero : String := "0x" ++ String.ofList (List.replicate 64 '0')

section Keys

variable (tables : Lowering)

/-- `str(value or "").strip().lower()` -/
def normId (value : String) : String := tables.lower (strip value)

lemma normId_empty : normId tables "" = "" := tables.lower_ascii (strip "") (by simp [strip])

namespace ClobSubmission

/-- The text that is hashed. -/
def payload (s : ClobSubmission) : String :=
  let traderNorm := normId tables s.traderId
  let signalNorm := normId tables s.signalId
  let legNorm := normId tables s.legId
  if legNorm ≠ "" then keyNamespace ++ "|" ++ traderNorm ++ "|" ++ signalNorm ++ "|" ++ legNorm
  else keyNamespace ++ "|" ++ traderNorm ++ "|" ++ signalNorm

/-- The trader and the signal are there. -/
def Named (s : ClobSubmission) : Prop :=
  normId tables s.traderId ≠ "" ∧ normId tables s.signalId ≠ ""

instance (s : ClobSubmission) : Decidable (s.Named tables) := inferInstanceAs (Decidable (_ ∧ _))

/-- The two submissions are the same up to case and blanks. -/
def SameIds (s s' : ClobSubmission) : Prop :=
  normId tables s.traderId = normId tables s'.traderId ∧
    normId tables s.signalId = normId tables s'.signalId ∧
    normId tables s.legId = normId tables s'.legId

instance (s s' : ClobSubmission) : Decidable (s.SameIds tables s') :=
  inferInstanceAs (Decidable (_ ∧ _ ∧ _))

end ClobSubmission

/-- `derive_clob_idempotency_key` -/
def deriveClobIdempotencyKey (s : ClobSubmission) : String :=
  if normId tables s.traderId = "" ∨ normId tables s.signalId = "" then bytes32Zero
  else "0x" ++ sha256 (s.payload tables).toUTF8

/-- `normalize_metadata_for_match`: a text of 64 hexadecimal digits, with or without its prefix,
becomes the same text with it, and every other text becomes empty. -/
def normalizeMetadataForMatch (value : Option String) : String :=
  match value with
  | none => ""
  | some value =>
    if value = "" then ""
    else
      let text := normId tables value
      if text = "" then ""
      else
        let text := if text.toList.take 2 = ['0', 'x'] then String.ofList (text.toList.drop 2)
          else text
        if text.length ≠ 64 then ""
        else if isHexInt text then "0x" ++ text
        else ""

/-! ## What a key identifies -/

namespace ClobSubmission

variable {tables}

/-- The texts that are joined. -/
def fields (tables : Lowering) (s : ClobSubmission) : List (List Char) :=
  [(normId tables s.traderId).toList, (normId tables s.signalId).toList] ++
    if normId tables s.legId = "" then [] else [(normId tables s.legId).toList]

/-- The pieces between bars, field by field. -/
def piecesByField (tables : Lowering) (s : ClobSubmission) : List (List (List Char)) :=
  (s.fields tables).map (List.splitOn '|')

/-- The two submissions do not distribute the same pieces differently over trader, signal and
leg. -/
def CutAlike (tables : Lowering) (s s' : ClobSubmission) : Prop :=
  (s.piecesByField tables).flatten = (s'.piecesByField tables).flatten →
    (s.piecesByField tables).map List.length = (s'.piecesByField tables).map List.length

instance (s s' : ClobSubmission) : Decidable (CutAlike tables s s') :=
  inferInstanceAs (Decidable (_ → _))

private lemma splitOn_inj {l l' : List Char} (h : l.splitOn '|' = l'.splitOn '|') : l = l' := by
  have hjoin := congrArg (List.intercalate ['|']) h
  rwa [List.intercalate_splitOn, List.intercalate_splitOn] at hjoin

private lemma splitOn_joined {l : List Char} {ls : List (List Char)} :
    (List.intercalate ['|'] (l :: ls)).splitOn '|' =
      ((l :: ls).map (List.splitOn '|')).flatten := by
  induction ls generalizing l with
  | nil => simp
  | cons l' ls ih =>
    have hcons : List.intercalate ['|'] (l :: l' :: ls) =
        l ++ '|' :: List.intercalate ['|'] (l' :: ls) := by
      simp [List.intercalate, List.intersperse]
    rw [hcons, List.splitOn_append_cons_self, ih]
    simp

lemma fields_ne_nil (s : ClobSubmission) :
    ∃ l ls, s.fields tables = l :: ls := ⟨_, _, rfl⟩

/-- The text is the namespace and the fields, joined by bars. -/
lemma toList_payload (s : ClobSubmission) :
    (s.payload tables).toList =
      keyNamespace.toList ++ '|' :: List.intercalate ['|'] (s.fields tables) := by
  by_cases hleg : normId tables s.legId = ""
  · simp [payload, fields, hleg, List.intercalate, List.intersperse]
  · simp [payload, fields, hleg, List.intercalate, List.intersperse]

/-- Two submissions have one text where they have the same pieces. -/
lemma payload_eq_iff {s s' : ClobSubmission} :
    s.payload tables = s'.payload tables ↔
      (s.piecesByField tables).flatten = (s'.piecesByField tables).flatten := by
  obtain ⟨l, ls, hl⟩ : ∃ l ls, s.fields tables = l :: ls := s.fields_ne_nil
  obtain ⟨l', ls', hl'⟩ : ∃ l ls, s'.fields tables = l :: ls := s'.fields_ne_nil
  rw [← String.toList_inj, toList_payload, toList_payload, List.append_cancel_left_eq,
    List.cons.injEq, and_iff_right rfl, piecesByField, piecesByField, hl, hl', ← splitOn_joined,
    ← splitOn_joined]
  exact ⟨fun h => congrArg _ h, splitOn_inj⟩

lemma sameIds_iff {s s' : ClobSubmission} :
    s.SameIds tables s' ↔ s.piecesByField tables = s'.piecesByField tables := by
  have hinj : Function.Injective (List.splitOn '|') := fun _ _ => splitOn_inj
  rw [piecesByField, piecesByField, List.map_injective_iff.2 hinj |>.eq_iff]
  unfold fields SameIds
  by_cases hleg : normId tables s.legId = "" <;> by_cases hleg' : normId tables s'.legId = "" <;>
    simp [hleg, hleg', String.toList_inj, eq_comm]

end ClobSubmission

/-! ## Echoes -/

/-- What the venue may send back of a key: the key with or without its prefix, in any letter case,
with white space around it. -/
def IsEcho (key value : String) : Prop :=
  ∃ before core after : List Char, value = String.ofList (before ++ (core ++ after)) ∧
    (∀ c ∈ before, isBlank c = true) ∧ (∀ c ∈ after, isBlank c = true) ∧
    (core.map Char.toLower = key.toList ∨ core.map Char.toLower = key.toList.drop 2)

/-- Letters apart, lowering changes no character, and it leaves the characters beyond ASCII. -/
private lemma toLower_cases (c : Char) :
    c.toLower = c ∨ (65 ≤ c.toNat ∧ c.toNat ≤ 90) := by
  unfold Char.toLower
  split
  · next h =>
    obtain ⟨hA, hZ⟩ := h
    exact .inr ⟨UInt32.le_iff_toNat_le.1 hA, UInt32.le_iff_toNat_le.1 hZ⟩
  · exact .inl rfl

private lemma toLower_of_isBlank {c : Char} (h : isBlank c = true) : c.toLower = c := by
  rcases toLower_cases c with heq | ⟨hA, hZ⟩
  · exact heq
  · simp only [isBlank, Bool.or_eq_true, Bool.and_eq_true, decide_eq_true_eq, beq_iff_eq] at h
    omega

private lemma toNat_lt_of_toLower {c : Char} (h : c.toLower.toNat < 128) : c.toNat < 128 := by
  rcases toLower_cases c with heq | ⟨-, hZ⟩
  · rwa [heq] at h
  · omega

/-- A lower-case hexadecimal digit. -/
def isLowerHex (c : Char) : Bool := c.isDigit || ('a' ≤ c && c ≤ 'f')

private lemma isLowerHex_toNat {c : Char} (h : isLowerHex c = true) :
    (48 ≤ c.toNat ∧ c.toNat ≤ 57) ∨ (97 ≤ c.toNat ∧ c.toNat ≤ 102) := by
  simp only [isLowerHex, Char.isDigit, Bool.or_eq_true, Bool.and_eq_true, decide_eq_true_eq] at h
  rcases h with ⟨h0, h9⟩ | ⟨ha, hf⟩
  · exact .inl ⟨UInt32.le_iff_toNat_le.1 h0, UInt32.le_iff_toNat_le.1 h9⟩
  · exact .inr ⟨UInt32.le_iff_toNat_le.1 ha, UInt32.le_iff_toNat_le.1 hf⟩

private lemma not_isBlank_of_isLowerHex {c : Char} (h : isLowerHex c = true) :
    isBlank c = false := by
  have hrange := isLowerHex_toNat h
  rw [Bool.eq_false_iff]
  intro hblank
  simp only [isBlank, Bool.or_eq_true, Bool.and_eq_true, decide_eq_true_eq, beq_iff_eq] at hblank
  omega

/-- A key that names something is a prefix and 64 lower-case hexadecimal digits. -/
lemma deriveClob_digits {s : ClobSubmission} (h : s.Named tables) :
    ∃ digits : List Char, deriveClobIdempotencyKey tables s = "0x" ++ String.ofList digits ∧
      digits.length = 64 ∧ ∀ c ∈ digits, isLowerHex c = true := by
  have hdigest := Data.isSha256_sha256 (s.payload tables).toUTF8
  simp only [Data.isSha256, Bool.and_eq_true, beq_iff_eq, List.all_eq_true] at hdigest
  refine ⟨(sha256 (s.payload tables).toUTF8).toList, ?_, hdigest⟩
  rw [deriveClobIdempotencyKey, if_neg (not_or.2 h), String.ofList_toList]

/-- `int` reads lower-case hexadecimal digits. -/
lemma isHexInt_of_digits {digits : List Char} (hne : digits ≠ [])
    (hdigits : ∀ c ∈ digits, isLowerHex c = true) : isHexInt (String.ofList digits) = true := by
  have hstrip : strip (String.ofList digits) = String.ofList digits :=
    strip_of_forall_not fun c hc =>
      not_isBlank_of_isLowerHex (hdigits c (by rwa [String.toList_ofList] at hc))
  have hnot : ∀ c, isLowerHex c = false → c ∉ digits := fun c hc hmem => by
    rw [hdigits c hmem] at hc
    cases hc
  have hgroup : digits.all isHexDigit = true := by
    refine List.all_eq_true.2 fun c hc => ?_
    have hlower := hdigits c hc
    rw [isLowerHex] at hlower
    rw [isHexDigit, hlower, Bool.true_or]
  have hsign : dropSign digits = digits := by
    unfold dropSign
    split
    · exact absurd List.mem_cons_self (hnot '+' (by decide))
    · exact absurd List.mem_cons_self (hnot '-' (by decide))
    · rfl
  have hbase : dropBase digits = digits := by
    unfold dropBase
    split
    · exact absurd (by simp) (hnot 'x' (by decide))
    · exact absurd (by simp) (hnot 'X' (by decide))
    · exact absurd (by simp) (hnot 'x' (by decide))
    · exact absurd (by simp) (hnot 'X' (by decide))
    · rfl
  rw [isHexInt, hstrip, String.toList_ofList, hsign, hbase,
    List.splitOn_eq_singleton (hnot '_' (by decide))]
  simp [hne, hgroup]

/-- An echo of a key is brought back to it. -/
theorem normalizeMetadataForMatch_echo {s : ClobSubmission} (h : s.Named tables) {value : String}
    (hecho : IsEcho (deriveClobIdempotencyKey tables s) value) :
    normalizeMetadataForMatch tables (some value) = deriveClobIdempotencyKey tables s := by
  obtain ⟨digits, hkey, hlength, hdigits⟩ := deriveClob_digits tables h
  obtain ⟨before, core, after, rfl, hbefore, hafter, hcore⟩ := hecho
  have hlist : (deriveClobIdempotencyKey tables s).toList = '0' :: 'x' :: digits := by
    rw [hkey, String.toList_append, String.toList_ofList (l := digits)]
    rfl
  rw [hlist] at hcore
  -- the characters of the echo, lowered, are those of the key
  have hlowered : ∀ c ∈ core, c.toLower = '0' ∨ c.toLower = 'x' ∨ isLowerHex c.toLower = true := by
    intro c hc
    have hmem := List.mem_map_of_mem (f := Char.toLower) hc
    rcases hcore with hcore | hcore
    · rw [hcore, List.mem_cons, List.mem_cons] at hmem
      exact hmem.imp_right (Or.imp_right (hdigits _))
    · rw [hcore] at hmem
      exact .inr (.inr (hdigits _ hmem))
  have hplain : ∀ c ∈ core, c.toLower.toNat < 128 ∧ isBlank c.toLower = false := by
    intro c hc
    rcases hlowered c hc with h0 | hx | hhex
    · rw [h0]
      decide
    · rw [hx]
      decide
    · have hrange := isLowerHex_toNat hhex
      exact ⟨by omega, not_isBlank_of_isLowerHex hhex⟩
  have hstrip : strip (String.ofList (before ++ (core ++ after))) = String.ofList core := by
    refine strip_pad hbefore (fun c hc => ?_) hafter
    rw [Bool.eq_false_iff]
    intro hblank
    have hplain := (hplain c hc).2
    rw [toLower_of_isBlank hblank, hblank] at hplain
    cases hplain
  have hnorm : normId tables (String.ofList (before ++ (core ++ after))) =
      String.ofList (core.map Char.toLower) := by
    rw [normId, hstrip, tables.lower_ascii, String.toList_ofList]
    intro c hc
    rw [String.toList_ofList] at hc
    exact toNat_lt_of_toLower (hplain c hc).1
  have hbody : (if (core.map Char.toLower).take 2 = ['0', 'x']
      then String.ofList ((core.map Char.toLower).drop 2)
      else String.ofList (core.map Char.toLower)) = String.ofList digits := by
    rcases hcore with hcore | hcore
    · rw [hcore]
      rfl
    · rw [hcore, if_neg]
      · rfl
      · intro htake
        have hmem : 'x' ∈ digits := List.mem_of_mem_take (i := 2) (by
          rw [show digits.take 2 = ['0', 'x'] from htake]
          simp)
        exact absurd (hdigits 'x' hmem) (by decide)
  have hne : core.map Char.toLower ≠ [] := by
    rcases hcore with hcore | hcore
    · rw [hcore]
      exact List.cons_ne_nil _ _
    · rw [hcore]
      rintro rfl
      cases hlength
  have hdigitsNe : digits ≠ [] := by
    rintro rfl
    cases hlength
  have hvalue : String.ofList (before ++ (core ++ after)) ≠ "" := by
    intro hempty
    rw [hempty] at hnorm
    rw [normId_empty] at hnorm
    exact hne (String.ofList_injective hnorm.symm)
  have htext : String.ofList (core.map Char.toLower) ≠ "" := fun hempty =>
    hne (String.ofList_injective hempty)
  simp only [normalizeMetadataForMatch, hnorm]
  rw [if_neg hvalue, if_neg htext, String.toList_ofList, hbody, String.length_ofList, hlength,
    if_neg (fun h => h rfl), if_pos (isHexInt_of_digits hdigitsNe hdigits), hkey]

/-! ## Keys identify submissions -/

/-- The key of one submission is that of the other exactly where the two are the same up to case and
blanks, and every echo of it is brought back to it. -/
def Identifies (s s' : ClobSubmission) : Prop :=
  (deriveClobIdempotencyKey tables s = deriveClobIdempotencyKey tables s' ↔ s.SameIds tables s') ∧
    ∀ value, IsEcho (deriveClobIdempotencyKey tables s) value →
      normalizeMetadataForMatch tables (some value) = deriveClobIdempotencyKey tables s

/-- Keys that name something are equal where the texts are. -/
lemma deriveClob_eq_iff {s s' : ClobSubmission} (h : s.Named tables) (h' : s'.Named tables)
    (hsha : NoCollision (s.payload tables).toUTF8 (s'.payload tables).toUTF8) :
    deriveClobIdempotencyKey tables s = deriveClobIdempotencyKey tables s' ↔
      s.payload tables = s'.payload tables := by
  rw [deriveClobIdempotencyKey, deriveClobIdempotencyKey, if_neg (not_or.2 h),
    if_neg (not_or.2 h')]
  constructor
  · intro heq
    have hlists := congrArg String.toList heq
    rw [String.toList_append, String.toList_append] at hlists
    exact String.toByteArray_inj.1 (hsha (String.toList_inj.1 (List.append_cancel_left hlists)))
  · intro heq
    rw [heq]

/-- The keys of two submissions identify them exactly where the two do not distribute the same
pieces between bars differently. -/
theorem identifies_iff {s s' : ClobSubmission} (h : s.Named tables) (h' : s'.Named tables)
    (hsha : NoCollision (s.payload tables).toUTF8 (s'.payload tables).toUTF8) :
    Identifies tables s s' ↔ ClobSubmission.CutAlike tables s s' := by
  have hkey := (deriveClob_eq_iff tables h h' hsha).trans ClobSubmission.payload_eq_iff
  have hsame : s.SameIds tables s' ↔ _ := ClobSubmission.sameIds_iff.trans List.eq_iff_flatten_eq
  constructor
  · rintro ⟨hiff, -⟩ hpieces
    exact (hsame.1 (hiff.1 (hkey.2 hpieces))).2
  · intro hcut
    refine ⟨⟨fun heq => ?_, fun hids => hkey.2 (hsame.1 hids).1⟩, fun value hecho =>
      normalizeMetadataForMatch_echo tables h hecho⟩
    have hpieces := hkey.1 heq
    exact hsame.2 ⟨hpieces, hcut hpieces⟩

end Keys

section Examples

/-- The case tables of ASCII. -/
def asciiLowering : Lowering := ⟨lowerAscii, fun _ _ => rfl⟩

/-- A leg of a signal, and a signal whose name ends in the leg's. -/
theorem leg_key_identifies :
    Identifies asciiLowering ⟨"Trader-1", " sig-abc", "LEG_1"⟩ ⟨"trader-1", "sig-abc", ""⟩ :=
  (identifies_iff asciiLowering (by decide +kernel) (by decide +kernel)
    (fun hsha => absurd hsha (by decide +kernel))).2 (by decide +kernel)

theorem bar_in_signal_collides :
    ¬ Identifies asciiLowering ⟨"trader-1", "sig|leg_1", ""⟩ ⟨"trader-1", "sig", "leg_1"⟩ := by
  rintro ⟨hiff, -⟩
  have hkey : deriveClobIdempotencyKey asciiLowering ⟨"trader-1", "sig|leg_1", ""⟩ =
      deriveClobIdempotencyKey asciiLowering ⟨"trader-1", "sig", "leg_1"⟩ := by
    decide +kernel
  exact absurd (hiff.1 hkey) (by decide +kernel)

end Examples

end Evosport.Orchestrator
