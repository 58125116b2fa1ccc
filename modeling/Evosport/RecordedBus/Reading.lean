/-
What the reader of the parquet backend finds.

Rounding a time to a date is monotone, so the padded dates of a window contain the dates of all its
times (`dayOf_mem_replayDays`).  Pruning a file by the least and the greatest value of its time
column loses no row of the window (`windowEvents_of_pruned`), and a directory's files are read in
the order of their names (`pairwise_dayFiles`).
-/
import Evosport.RecordedBus.Parquet
import Mathlib.Tactic.Linarith

namespace Evosport.RecordedBus

open Lib

/-! ## Dates -/

lemma wholeSeconds_mono : Monotone wholeSeconds := by
  intro x y hxy
  unfold wholeSeconds
  split_ifs with hx hy hy
  · exact Int.floor_mono hxy
  · exact absurd (hx.trans hxy) hy
  · exact (Int.ceil_le.2 (by simpa using (not_le.1 hx).le)).trans (Int.floor_nonneg.2 hy)
  · exact Int.ceil_mono hxy

lemma toDouble_million : toDouble 1000000 = 1000000 := by decide +kernel

/-- The rounded fraction is at most a second, and has the sign of the timestamp. -/
lemma fraction_bounds (x : ℚ) :
    let f := nearestEven (toDouble ((x - wholeSeconds x) * 1000000))
    (0 ≤ x → 0 ≤ f ∧ f ≤ 1000000) ∧ (x ≤ 0 → -1000000 ≤ f ∧ f ≤ 0) := by
  have hround {q : ℚ} {n : ℤ} (h : q ≤ n) (hn : toDouble n = n) : nearestEven (toDouble q) ≤ n := by
    have := nearestEven_mono (toDouble_mono h)
    rwa [hn, nearestEven_intCast] at this
  have hround' {q : ℚ} {n : ℤ} (h : n ≤ q) (hn : toDouble n = n) :
      n ≤ nearestEven (toDouble q) := by
    have := nearestEven_mono (toDouble_mono h)
    rwa [hn, nearestEven_intCast] at this
  have hzero : toDouble ((0 : ℤ) : ℚ) = ((0 : ℤ) : ℚ) := by simp
  have hmillion : toDouble ((1000000 : ℤ) : ℚ) = ((1000000 : ℤ) : ℚ) := by
    simpa using toDouble_million
  have hminus : toDouble ((-1000000 : ℤ) : ℚ) = ((-1000000 : ℤ) : ℚ) := by
    have := toDouble_neg 1000000
    rw [toDouble_million] at this
    simpa using this
  refine ⟨fun hx => ?_, fun hx => ?_⟩
  · have hwhole : wholeSeconds x = ⌊x⌋ := if_pos hx
    have hlo := Int.floor_le x
    have hhi := Int.lt_floor_add_one x
    rw [hwhole]
    exact ⟨hround' (by push_cast; linarith) hzero, hround (by push_cast; linarith) hmillion⟩
  · have hwhole : wholeSeconds x = ⌈x⌉ := by
      rcases hx.lt_or_eq with hx | rfl
      · exact if_neg (not_le.2 hx)
      · simp [wholeSeconds]
    have hlo := Int.le_ceil x
    have hhi := Int.ceil_lt_add_one x
    rw [hwhole]
    exact ⟨hround' (by push_cast; linarith) hminus, hround (by push_cast; linarith) hzero⟩

lemma timestampMicros_mono : Monotone timestampMicros := by
  intro x y hxy
  have hx := fraction_bounds x
  have hy := fraction_bounds y
  simp only at hx hy
  unfold timestampMicros
  rcases (wholeSeconds_mono hxy).lt_or_eq with hlt | heq
  · -- a second apart; the fractions have the signs of their timestamps
    rcases le_total 0 x with h0 | h0
    · have := hx.1 h0
      have := hy.1 (h0.trans hxy)
      omega
    · have := hx.2 h0
      rcases le_total 0 y with h1 | h1
      · have := hy.1 h1
        omega
      · have := hy.2 h1
        omega
  · rw [heq]
    have hle : (x - wholeSeconds y) * 1000000 ≤ (y - wholeSeconds y) * 1000000 := by linarith
    have := nearestEven_mono (toDouble_mono hle)
    omega

lemma fromTimestamp_mono : Monotone fromTimestamp := by
  intro a b hab
  have hcast : (a : ℚ) ≤ b := by exact_mod_cast hab
  refine timestampMicros_mono (toDouble_mono ?_)
  have := toDouble_mono hcast
  linarith

/-- Later times have no earlier dates. -/
lemma dayOf_le {a b d d' : ℤ} (hab : a ≤ b) (ha : dayOf a = some d) (hb : dayOf b = some d') :
    d ≤ d' := by
  have hmono := fromTimestamp_mono hab
  unfold dayOf at ha hb
  dsimp only at ha hb
  split_ifs at ha hb
  cases ha
  cases hb
  omega

lemma dayOf_bounds {us d : ℤ} (h : dayOf us = some d) : minDay ≤ d ∧ d ≤ maxDay := by
  unfold dayOf at h
  dsimp only at h
  split_ifs at h with hd
  cases h
  exact hd

/-- The dates of the calendar have different texts. -/
lemma isoDate_inj_of_minDay {d d' : ℤ} (hd : minDay ≤ d) (hd' : minDay ≤ d') :
    isoDate d = isoDate d' ↔ d = d' := by
  have hyear : ∀ d, minDay ≤ d → 0 ≤ (civil d).1 := by
    intro d hd
    have := yearOfEra_bounds d
    simp only [civil, minDay] at hd ⊢
    split_ifs <;> omega
  exact isoDate_inj (hyear d hd) (hyear d' hd')

lemma mem_daysBetween {lo hi d : ℤ} : d ∈ daysBetween lo hi ↔ lo ≤ d ∧ d ≤ hi := by
  simp only [daysBetween, List.mem_map, List.mem_range]
  constructor
  · rintro ⟨i, hi, rfl⟩
    omega
  · rintro ⟨hlo, hhi⟩
    exact ⟨(d - lo).toNat, by omega, by omega⟩

lemma pairwise_daysBetween (lo hi : ℤ) : (daysBetween lo hi).Pairwise (· < ·) := by
  refine List.pairwise_map.2 (List.pairwise_lt_range.imp fun h => ?_)
  omega

/-- The dates of a window are those from the day before its start to the day behind its end. -/
lemma replayDays_eq_some {w : ReplayWindow} {days : List ℤ} :
    replayDays w = some days ↔ ∃ startDay endDay, dayOf w.startUs = some startDay ∧
      dayOf w.endUs = some endDay ∧ minDay ≤ startDay - 1 ∧ endDay + 2 ≤ maxDay ∧
      days = daysBetween (startDay - 1) (endDay + 1) := by
  unfold replayDays
  cases dayOf w.startUs with
  | none => simp
  | some startDay =>
    cases dayOf w.endUs with
    | none => simp
    | some endDay =>
      simp only [Option.bind_eq_bind, Option.bind_some]
      split_ifs with h
      · simp only [Option.some.injEq, false_iff]
        rintro ⟨s, e, rfl, rfl, hs, he, -⟩
        omega
      · simp only [Option.some.injEq]
        constructor
        · rintro rfl
          exact ⟨startDay, endDay, rfl, rfl, by omega, by omega, rfl⟩
        · rintro ⟨s, e, rfl, rfl, -, -, rfl⟩
          rfl

lemma minDay_le_of_mem {w : ReplayWindow} {days : List ℤ} (h : replayDays w = some days) {d : ℤ}
    (hd : d ∈ days) : minDay ≤ d := by
  obtain ⟨s, e, -, -, hs, -, rfl⟩ := replayDays_eq_some.1 h
  have := mem_daysBetween.1 hd
  omega

lemma pairwise_replayDays {w : ReplayWindow} {days : List ℤ} (h : replayDays w = some days) :
    days.Pairwise (· < ·) := by
  obtain ⟨s, e, -, -, -, -, rfl⟩ := replayDays_eq_some.1 h
  exact pairwise_daysBetween _ _

/-- The dates of the window contain the date of every time in it. -/
theorem dayOf_mem_replayDays {w : ReplayWindow} {days : List ℤ} (h : replayDays w = some days)
    {t d : ℤ} (ht : w.Contains t) (hd : dayOf t = some d) : d ∈ days := by
  obtain ⟨s, e, hs, he, -, -, rfl⟩ := replayDays_eq_some.1 h
  have h₁ := dayOf_le ht.1 hs hd
  have h₂ := dayOf_le ht.2.le hd he
  exact mem_daysBetween.2 ⟨by omega, by omega⟩

/-! ## Files -/

lemma columnMin_le {ts : List ℤ} {lo : ℤ} (h : columnMin ts = some lo) : ∀ t ∈ ts, lo ≤ t := by
  cases ts with
  | nil => simp [columnMin] at h
  | cons t ts =>
    simp only [columnMin, Option.some.injEq] at h
    suffices ∀ t₀, ts.foldl (fun lo t => if t < lo then t else lo) t₀ ≤ t₀ ∧
        ∀ u ∈ ts, ts.foldl (fun lo t => if t < lo then t else lo) t₀ ≤ u by
      rw [← h]
      exact List.forall_mem_cons.2 (this t)
    clear h
    induction ts with
    | nil => simp
    | cons u ts ih =>
      intro t₀
      obtain ⟨hle, hall⟩ := ih (if u < t₀ then u else t₀)
      have hu : (if u < t₀ then u else t₀) ≤ t₀ ∧ (if u < t₀ then u else t₀) ≤ u := by
        split_ifs <;> omega
      exact ⟨hle.trans hu.1, List.forall_mem_cons.2 ⟨hle.trans hu.2, hall⟩⟩

lemma le_columnMax {ts : List ℤ} {hi : ℤ} (h : columnMax ts = some hi) : ∀ t ∈ ts, t ≤ hi := by
  cases ts with
  | nil => simp [columnMax] at h
  | cons t ts =>
    simp only [columnMax, Option.some.injEq] at h
    suffices ∀ t₀, t₀ ≤ ts.foldl (fun hi t => if hi < t then t else hi) t₀ ∧
        ∀ u ∈ ts, u ≤ ts.foldl (fun hi t => if hi < t then t else hi) t₀ by
      rw [← h]
      exact List.forall_mem_cons.2 (this t)
    clear h
    induction ts with
    | nil => simp
    | cons u ts ih =>
      intro t₀
      obtain ⟨hle, hall⟩ := ih (if t₀ < u then u else t₀)
      have hu : t₀ ≤ (if t₀ < u then u else t₀) ∧ u ≤ (if t₀ < u then u else t₀) := by
        split_ifs <;> omega
      exact ⟨hu.1.trans hle, List.forall_mem_cons.2 ⟨hu.2.trans hle, hall⟩⟩

variable {F : Type} [PyFloat F]

/-- A file that is pruned has no row in the window. -/
lemma windowEvents_of_pruned {w : ReplayWindow} {rows : List Row} (h : keepsFile w rows = false) :
    (windowEvents w rows : List (RecordedEvent F)) = [] := by
  have hout : ∀ r ∈ rows, ¬ w.Contains (r.time w.timeField) := by
    intro r hr hcontains
    have htime := List.mem_map_of_mem (f := Row.time w.timeField) hr
    unfold keepsFile at h
    split at h
    · next lo hi hlo hhi =>
      have h₁ := columnMin_le hlo _ htime
      have h₂ := le_columnMax hhi _ htime
      simp only [Bool.not_eq_false', Bool.or_eq_true, decide_eq_true_eq] at h
      unfold ReplayWindow.Contains at hcontains
      omega
    · exact absurd h (by simp)
  rw [windowEvents, List.filter_eq_nil_iff.2 fun r hr => by simpa using hout r hr,
    List.filterMap_nil]

/-- In a file that the writer wrote, the events of the window are those of its batch. -/
lemma windowEvents_toRow (w : ReplayWindow) (events : List (RecordedEvent F)) :
    windowEvents w (events.map RecordedEvent.toRow) =
      events.filter fun e => decide (w.Contains (e.time w.timeField)) := by
  induction events with
  | nil => rfl
  | cons e events ih =>
    unfold windowEvents at ih ⊢
    by_cases he : w.Contains (e.time w.timeField)
    · simp [time_toRow, he, event?_toRow, ih]
    · simp [time_toRow, he, ih]

/-- Pruning leaves the stream of a directory as it is. -/
lemma entityStream_eq (store : Store) (w : ReplayWindow) (days : List ℤ) (dir : Dir) :
    entityStream (F := F) store w days dir = days.flatMap fun day =>
      (store.dayFiles (dir ++ [isoDate day])).flatMap fun f => readFileRows w f.2 := by
  refine List.flatMap_congr fun day _ => ?_
  induction store.dayFiles (dir ++ [isoDate day]) with
  | nil => rfl
  | cons f fs ih =>
    cases hkeeps : keepsFile w f.2 with
    | false => simpa [hkeeps, readFileRows, windowEvents_of_pruned hkeeps, sortByKey] using ih
    | true => simp [hkeeps, ih]

omit [PyFloat F] in
lemma mem_dayFiles {store : Store} {dir : Dir} {name : String} {rows : List Row} :
    (name, rows) ∈ store.dayFiles dir ↔ store.files.get? (dir, name) = some rows := by
  unfold Store.dayFiles
  rw [mem_sortByKey, ← Dict.mem_entries]
  simp only [List.mem_map, List.mem_filter, decide_eq_true_eq, Prod.mk.injEq, Prod.exists]
  constructor
  · rintro ⟨_, _, _, ⟨hmem, rfl⟩, rfl, rfl⟩
    exact hmem
  · intro hmem
    exact ⟨dir, name, rows, ⟨hmem, rfl⟩, rfl, rfl⟩

omit [PyFloat F] in
/-- The files of a directory are read in the order of their names. -/
lemma pairwise_dayFiles (store : Store) (dir : Dir) :
    (store.dayFiles dir).Pairwise fun f g => f.1 < g.1 := by
  have hnodup : (store.dayFiles dir).Pairwise fun f g => f.1 ≠ g.1 := by
    refine List.pairwise_map.1 (show ((store.dayFiles dir).map Prod.fst).Nodup from ?_)
    unfold Store.dayFiles
    refine ((perm_sortByKey Prod.fst _).map Prod.fst).nodup_iff.2 ?_
    rw [List.map_map]
    -- the names differ since the files do
    have hfiles := (store.files.nodup.sublist
      ((List.filter_sublist (p := fun f => decide (f.1.1 = dir))).map Prod.fst))
    refine List.Nodup.map_on (fun f hf g hg hname => ?_) (List.Nodup.of_map Prod.fst hfiles)
    have hdir : f.1.1 = g.1.1 := by
      simp only [List.mem_filter, decide_eq_true_eq] at hf hg
      rw [hf.2, hg.2]
    exact List.inj_on_of_nodup_map hfiles hf hg (Prod.ext hdir hname)
  exact (pairwise_sortByKey _).imp₂ (fun f g hle hne => lt_of_le_of_ne hle hne) hnodup

end Evosport.RecordedBus
