/-
What the pins protect.

A pin protects its paths for as long as the file of its content hash covers it, that is names its
paths and expires no earlier than the pin does (`PinRecord.Covers`).  Nothing in the code keeps the
file that way: a pin of another run replaces it, a release of another run deletes it, and so does a
pruner that has read it before it was replaced.  Where each of these steps leaves a file that covers
the live pins (`Harmless`), every live pin is reported (`protected_of_harmless`).
-/
import Evosport.Data.Pins
import Evosport.Lib.Run
import Mathlib.Data.List.Dedup
import Mathlib.Data.List.DropRight
import Mathlib.Tactic.Linarith

namespace Evosport.Data

open Lib

/-! ## Paths -/

lemma slash_slash (c : Char) : slash (slash c) = slash c := by
  unfold slash
  split_ifs with h h' <;> simp_all

/-- Normalising twice is normalising once. -/
lemma norm_norm (p : String) : norm (norm p) = norm p := by
  unfold norm
  have hmap : ∀ l : List Char, ((l.map slash).reverse.dropWhile (· = '/')).reverse.map slash =
      ((l.map slash).reverse.dropWhile (· = '/')).reverse := by
    intro l
    refine List.map_congr_left (g := id) (fun c hc => ?_) |>.trans (List.map_id _)
    have hmem : c ∈ l.map slash := by
      have := (List.dropWhile_sublist (p := (· = '/')) (l := (l.map slash).reverse)).subset
        (List.mem_reverse.1 hc)
      exact List.mem_reverse.1 this
    obtain ⟨d, -, rfl⟩ := List.mem_map.1 hmem
    exact slash_slash d
  rw [String.toList_ofList, hmap, List.reverse_reverse, List.dropWhile_idempotent]

lemma isPathPinned_of_mem {path : String} {pinned : List String} (h : norm path ∈ pinned) :
    isPathPinned path pinned = true := by
  have hne : pinned ≠ [] := List.ne_nil_of_mem h
  simp [isPathPinned, hne, h]

lemma micros_mono {s t : ℚ} (h : s ≤ t) : micros s ≤ micros t := by
  refine Int.floor_mono ?_
  linarith

/-! ## Covers -/

variable {ι : Type*}

/-- The file names the paths of the pin and expires no earlier. -/
def PinRecord.Covers (r : PinRecord) (pin : Pin ι) : Prop :=
  (∀ p ∈ pin.paths, norm p ∈ r.paths) ∧ micros pin.deadline ≤ r.expiresAtUs

instance (r : PinRecord) (pin : Pin ι) : Decidable (r.Covers pin) :=
  inferInstanceAs (Decidable (_ ∧ _))

namespace PinWorld

/-- Its own time to live has not elapsed. -/
def Live (w : PinWorld ι) (pin : Pin ι) : Prop := w.now ≤ pin.deadline

instance (w : PinWorld ι) (pin : Pin ι) : Decidable (w.Live pin) :=
  inferInstanceAs (Decidable (_ ≤ _))

/-- Every path that a run has pinned and not released is reported as pinned during the time to live
of its pin. -/
def Protected (w : PinWorld ι) : Prop :=
  ∀ pin ∈ w.pins, w.Live pin → ∀ p ∈ pin.paths,
    isPathPinned p (activePinnedPaths w.files w.now) = true

instance (w : PinWorld ι) : Decidable w.Protected :=
  inferInstanceAs (Decidable (∀ pin ∈ w.pins, _))

/-- The live pins whose file is `stem`. -/
def livePins (isAlnum : Char → Bool) (w : PinWorld ι) (stem : String) : List (Pin ι) :=
  w.pins.filter fun pin => decide (safeHash isAlnum pin.contentHash = stem ∧ w.Live pin)

lemma mem_livePins {isAlnum : Char → Bool} {w : PinWorld ι} {stem : String} {pin : Pin ι} :
    pin ∈ livePins isAlnum w stem ↔
      pin ∈ w.pins ∧ safeHash isAlnum pin.contentHash = stem ∧ w.Live pin := by
  simp [livePins]

/-- Every live pin is covered by the file of its content hash. -/
def Covered (isAlnum : Char → Bool) (w : PinWorld ι) : Prop :=
  ∀ pin ∈ w.pins, w.Live pin →
    ∃ r, w.files.get? (safeHash isAlnum pin.contentHash) = some r ∧ r.Covers pin

variable {isAlnum : Char → Bool} {w : PinWorld ι}

/-- What is covered is protected. -/
lemma Covered.protected (h : w.Covered isAlnum) : w.Protected := by
  intro pin hpin hlive p hp
  obtain ⟨r, hr, hpaths, hexpires⟩ := h pin hpin hlive
  refine isPathPinned_of_mem (List.mem_flatMap.2 ⟨r, List.mem_filter.2 ⟨?_, ?_⟩, ?_⟩)
  · exact Dict.mem_values.2 ⟨_, hr⟩
  · exact decide_eq_true ((micros_mono hlive).trans hexpires)
  · exact List.mem_map.2 ⟨norm p, hpaths p hp, norm_norm p⟩

/-! ## Steps -/

variable [DecidableEq ι]

/-- The step leaves a file that covers the live pins.  A file is moved into place only over pins
that it covers, its own among them, a release finds no live pin of another run in its file, and a
pruner deletes a file that is still the expired one that it read. -/
def Harmless (isAlnum : Char → Bool) (w : PinWorld ι) : PinEvent ι → Prop
  | .replace i =>
    match w.phase i with
    | .pinning pin =>
      match w.temps.get? (safeHash isAlnum pin.contentHash) with
      | some payload =>
        ∀ other ∈ pin :: livePins isAlnum w (safeHash isAlnum pin.contentHash), payload.Covers other
      | none => False
    | _ => True
  | .release i contentHash =>
    match w.phase i with
    | .idle => ∀ other ∈ livePins isAlnum w (safeHash isAlnum contentHash),
        other.owner = i ∧ other.contentHash = contentHash
    | _ => True
  | .collect i =>
    match w.phase i with
    | .collecting file =>
      match w.files.get? file with
      | some r => r.expiresAtUs < micros w.now
      | none => True
    | _ => True
  | _ => True

instance (e : PinEvent ι) : Decidable (Harmless isAlnum w e) := by
  unfold Harmless
  split
  · split
    · split <;> infer_instance
    · infer_instance
  · split <;> infer_instance
  · split
    · split <;> infer_instance
    · infer_instance
  · infer_instance

omit [DecidableEq ι] in
/-- Covers survive whatever leaves the files alone and lets time pass. -/
lemma Covered.of_same {w' : PinWorld ι} (h : w.Covered isAlnum) (hfiles : w'.files = w.files)
    (hpins : w'.pins = w.pins) (hnow : w.now ≤ w'.now) : w'.Covered isAlnum := by
  intro pin hpin hlive
  rw [hfiles]
  exact h pin (hpins ▸ hpin) (hnow.trans hlive)

omit [DecidableEq ι] in
/-- A file that covers the live pins and the new one is moved into place. -/
lemma Covered.replaceFile (h : w.Covered isAlnum) {mine : Pin ι} {payload : PinRecord}
    (htemp : w.temps.get? (safeHash isAlnum mine.contentHash) = some payload)
    (hcovers : ∀ other ∈ mine :: livePins isAlnum w (safeHash isAlnum mine.contentHash),
      payload.Covers other) : (w.replaceFile isAlnum mine).Covered isAlnum := by
  intro pin hpin hlive
  simp only [PinWorld.replaceFile, htemp] at hpin hlive ⊢
  rw [Dict.get?_set]
  obtain hold | hnew := List.mem_append.1 hpin
  · split
    · next hstem =>
      exact ⟨payload, rfl, hcovers pin
        (List.mem_cons_of_mem _ (mem_livePins.2 ⟨hold, hstem.symm, hlive⟩))⟩
    · exact h pin hold hlive
  · rw [List.mem_singleton.1 hnew, if_pos rfl]
    exact ⟨payload, rfl, hcovers mine List.mem_cons_self⟩

lemma Covered.replace (h : w.Covered isAlnum) {i : ι} (hok : Harmless isAlnum w (.replace i)) :
    (w.step isAlnum (.replace i)).Covered isAlnum := by
  unfold Harmless at hok
  unfold step
  dsimp only at hok ⊢
  split
  · next mine hphase =>
    simp only [hphase] at hok
    cases htemp : w.temps.get? (safeHash isAlnum mine.contentHash) with
    | none => simp only [htemp] at hok
    | some payload =>
      simp only [htemp] at hok
      exact h.replaceFile htemp hok
  · exact h

lemma Covered.release (h : w.Covered isAlnum) {i : ι} {contentHash : String}
    (hok : Harmless isAlnum w (.release i contentHash)) :
    (w.step isAlnum (.release i contentHash)).Covered isAlnum := by
  unfold Harmless at hok
  unfold step
  dsimp only at hok ⊢
  split
  · next hphase =>
    simp only [hphase] at hok
    intro pin hpin hlive
    obtain ⟨hold, hkept⟩ := List.mem_filter.1 hpin
    obtain ⟨r, hr, hcovers⟩ := h pin hold hlive
    refine ⟨r, ?_, hcovers⟩
    show (w.files.erase (safeHash isAlnum contentHash)).get? _ = some r
    rw [Dict.get?_erase, if_neg, hr]
    intro hstem
    exact of_decide_eq_true hkept (hok pin (mem_livePins.2 ⟨hold, hstem.symm, hlive⟩))
  · exact h

lemma Covered.collect (h : w.Covered isAlnum) {i : ι} (hok : Harmless isAlnum w (.collect i)) :
    (w.step isAlnum (.collect i)).Covered isAlnum := by
  unfold Harmless at hok
  unfold step
  dsimp only at hok ⊢
  split
  · next file hphase =>
    simp only [hphase] at hok
    intro pin hpin hlive
    obtain ⟨r, hr, hcovers⟩ := h pin hpin hlive
    refine ⟨r, ?_, hcovers⟩
    show (w.files.erase file).get? _ = some r
    rw [Dict.get?_erase, if_neg, hr]
    -- an expired file covers no live pin
    rintro rfl
    simp only [hr] at hok
    exact absurd (micros_mono hlive) (not_le.2 (lt_of_le_of_lt hcovers.2 hok))
  · exact h

/-- A harmless step keeps every live pin covered. -/
lemma Covered.step (h : w.Covered isAlnum) {e : PinEvent ι} (hok : Harmless isAlnum w e) :
    (w.step isAlnum e).Covered isAlnum := by
  cases e with
  | tick dt => exact h.of_same rfl rfl (le_add_of_nonneg_right (le_max_left 0 dt))
  | writeTemp i contentHash paths ttlSeconds =>
    unfold PinWorld.step
    dsimp only
    split
    · exact h.of_same rfl rfl le_rfl
    · exact h
  | replace i => exact h.replace hok
  | pinFails i =>
    unfold PinWorld.step
    dsimp only
    split
    · exact h.of_same rfl rfl le_rfl
    · exact h
  | release i contentHash => exact h.release hok
  | readExpired i file =>
    unfold PinWorld.step
    dsimp only
    split
    · split
      · exact h.of_same rfl rfl le_rfl
      · exact h
    · exact h
  | collect i => exact h.collect hok

/-! ## Runs -/

/-- Nothing is pinned when a run starts, whatever pin files are there. -/
def Starts (w : PinWorld ι) : Prop := w.pins = []

/-- In a run of harmless steps, every path is reported as pinned from the moment it is pinned until
its run releases it or its own time to live has elapsed. -/
theorem protected_of_harmless (hstart : w.Starts) {es : List (PinEvent ι)}
    (h : EveryStep (step isAlnum) (Harmless isAlnum) w es) (pre : List (PinEvent ι))
    (hpre : pre <+: es) : (pre.foldl (step isAlnum) w).Protected := by
  have hinitial : w.Covered isAlnum := by
    intro pin hpin
    rw [hstart] at hpin
    cases hpin
  exact ((h.of_prefix hpre).invariant hinitial fun _ _ h' hok => h'.step hok).protected

section Examples

/-- Neither pins nor processes at work. -/
def noPins : PinWorld ℕ := ⟨Dict.empty, Dict.empty, fun _ => .idle, 0, []⟩

theorem noPins_starts : noPins.Starts := rfl

/-- Two runs pin the two days of one dataset, one after the other. -/
def twoDays : List (PinEvent ℕ) :=
  [.writeTemp 0 "h" ["/d/1", "/d/2"] 3600, .replace 0, .tick 60,
    .writeTemp 1 "h" ["/d/2/", "/d/1/"] 3600, .replace 1]

theorem twoDays_protected : (twoDays.foldl (step Char.isAlphanum) noPins).Protected :=
  protected_of_harmless noPins_starts (by decide +kernel) twoDays (List.prefix_refl _)

/-- The first of the two to finish takes the pin of the other away. -/
theorem released_unprotected :
    ¬ ((twoDays ++ [PinEvent.release 0 "h"]).foldl (step Char.isAlphanum) noPins).Protected := by
  decide +kernel

end Examples

end PinWorld

end Evosport.Data
