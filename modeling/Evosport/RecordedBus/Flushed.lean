/-
What the flushes of a run leave on the disk.

The ring keeps every event in the bucket of its entity and date (`Filed`), and below its cap
(`Counted.offer_le`), so a flush writes batches whose events belong where they are written.  Where
the names of the files differ, the disk holds the written batches and nothing else
(`entries_run`).
-/
import Evosport.Lib.Run
import Evosport.RecordedBus.Parquet

namespace Evosport.RecordedBus

open Lib

variable {F : Type}

/-- The partition of an event below the storage uri. -/
def partitionOf (uri : Dir) (e : RecordedEvent F) (day : ℤ) : Dir :=
  entityDir uri e.entityId ++ [isoDate day]

namespace WriteRing

variable {ring ring' : WriteRing F} {uri : Dir} {P : Dir → Prop}

/-- The bucket `key` is the one of the event's entity and date. -/
def Belongs (key : BucketKey) (e : RecordedEvent F) : Prop :=
  e.entityId = key.entityId ∧ ∃ day, dayOf e.observedAtUs = some day ∧ isoDate day = key.dateStr

/-- Every event is in its bucket, and every bucket is stored at a `uri` with `P`. -/
structure Filed (P : Dir → Prop) (ring : WriteRing F) : Prop where
  belongs : ∀ key bucket, ring.buckets.get? key = some bucket → ∀ e ∈ bucket, Belongs key e
  cached : ∀ key bucket, ring.buckets.get? key = some bucket →
    (ring.uriCache.get? key.topic).isSome
  uris : ∀ topic u, ring.uriCache.get? topic = some u → P u

lemma filed_empty : Filed P (empty : WriteRing F) where
  belongs := by simp [empty]
  cached := by simp [empty]
  uris := by simp [empty]

/-- Taking events or buckets out of the ring leaves the others where they belong. -/
lemma Filed.shrink (h : Filed P ring) (huri : ring'.uriCache = ring.uriCache)
    (hsub : ∀ key bucket, ring'.buckets.get? key = some bucket →
      ∃ old, ring.buckets.get? key = some old ∧ bucket ⊆ old) : Filed P ring' where
  belongs key bucket hget e he := by
    obtain ⟨old, hold, hmem⟩ := hsub key bucket hget
    exact h.belongs key old hold e (hmem he)
  cached key bucket hget := by
    obtain ⟨old, hold, -⟩ := hsub key bucket hget
    rw [huri]
    exact h.cached key old hold
  uris topic u hget := h.uris topic u (huri ▸ hget)

/-- A loop each of whose passes keeps what it holds or takes the element it is at. -/
lemma foldl_keep_or_take {β : Type} {f : Option β → β → Option β}
    (hf : ∀ best b, f best b = best ∨ f best b = some b) (bs : List β) (best : Option β) :
    bs.foldl f best = best ∨ ∃ b ∈ bs, bs.foldl f best = some b := by
  induction bs generalizing best with
  | nil => exact .inl rfl
  | cons b bs ih =>
    rw [List.foldl_cons]
    rcases ih (f best b) with hkept | ⟨c, hc, htaken⟩
    · rcases hf best b with hbest | hb
      · exact .inl (hkept.trans hbest)
      · exact .inr ⟨b, List.mem_cons_self, hkept.trans hb⟩
    · exact .inr ⟨c, List.mem_cons_of_mem b hc, htaken⟩

/-- The largest bucket is one of the buckets. -/
lemma largest_cases (buckets : List (BucketKey × List (RecordedEvent F))) :
    largest buckets = none ∨ ∃ b ∈ buckets, largest buckets = some b := by
  refine foldl_keep_or_take (fun best b => ?_) buckets none
  cases best with
  | none => exact .inr rfl
  | some m =>
    dsimp only
    split_ifs
    · exact .inr rfl
    · exact .inl rfl

lemma mem_of_largest {buckets : List (BucketKey × List (RecordedEvent F))}
    {b : BucketKey × List (RecordedEvent F)} (h : largest buckets = some b) : b ∈ buckets := by
  rcases largest_cases buckets with hnone | ⟨c, hc, hsome⟩
  · rw [h] at hnone
    cases hnone
  · rw [h] at hsome
    cases hsome
    exact hc

/-- Dropping an event: nothing happens, or the bucket found loses its oldest event. -/
lemma dropOneOldest_cases (ring : WriteRing F) :
    ring.dropOneOldest = ring ∨ ∃ key e bucket, ring.buckets.get? key = some (e :: bucket) ∧
      ring.dropOneOldest = { ring with
        buckets := if bucket = [] then ring.buckets.erase key else ring.buckets.set key bucket
        total := ring.total - 1 } := by
  unfold dropOneOldest
  cases hlargest : largest ring.buckets.entries with
  | none => exact .inl rfl
  | some b =>
    obtain ⟨key, bucket⟩ := b
    have hget := Dict.mem_entries.1 (mem_of_largest hlargest)
    match bucket, hget with
    | [], _ => exact .inl rfl
    | [e], hget => exact .inr ⟨key, e, [], hget, by simp⟩
    | e :: e' :: bucket, hget => exact .inr ⟨key, e, e' :: bucket, hget, by simp⟩

lemma Filed.dropOneOldest (h : Filed P ring) : Filed P ring.dropOneOldest := by
  obtain heq | ⟨key, e, bucket, hget, heq⟩ := dropOneOldest_cases ring
  · rwa [heq]
  · rw [heq]
    refine h.shrink rfl fun k b hb => ?_
    by_cases hk : key = k
    · subst hk
      refine ⟨e :: bucket, hget, ?_⟩
      by_cases hnil : bucket = []
      · simp [hnil] at hb
      · simp only [hnil, if_false, Dict.get?_set_self, Option.some.injEq] at hb
        exact hb ▸ List.subset_cons_self e bucket
    · refine ⟨b, ?_, List.Subset.refl b⟩
      by_cases hnil : bucket = []
      · simpa [hnil, Dict.get?_erase_of_ne _ hk] using hb
      · simpa [hnil, Dict.get?_set_of_ne _ _ hk] using hb

lemma get?_uriCache_enqueue {key : BucketKey} {e : RecordedEvent F} {topic : String} :
    (ring.enqueue key e uri).uriCache.get? topic =
      if topic = e.topic then some ((ring.uriCache.get? topic).getD uri)
      else ring.uriCache.get? topic := by
  have hcache : (ring.enqueue key e uri).uriCache =
      if ring.uriCache.contains e.topic then ring.uriCache else ring.uriCache.set e.topic uri := rfl
  rw [hcache]
  by_cases hold : ring.uriCache.contains e.topic = true
  · rw [if_pos hold]
    obtain ⟨u, hu⟩ := Option.isSome_iff_exists.1 hold
    split_ifs with htopic
    · rw [htopic, hu, Option.getD_some]
    · rfl
  · rw [if_neg hold, Dict.get?_set]
    have hnone : ring.uriCache.get? e.topic = none := by
      simpa [Dict.contains] using hold
    by_cases htopic : e.topic = topic
    · simp [← htopic, hnone]
    · simp [htopic, Ne.symm htopic]

lemma Filed.enqueue (h : Filed P ring) (huri : P uri) {key : BucketKey} {e : RecordedEvent F}
    (htopic : key.topic = e.topic) (hbelongs : Belongs key e) :
    Filed P (ring.enqueue key e uri) := by
  refine ⟨fun k bucket hget e' he' => ?_, fun k bucket hget => ?_, fun topic u hu => ?_⟩
  · simp only [WriteRing.enqueue, Dict.get?_set] at hget
    split_ifs at hget with hk
    · subst hk
      rw [← Option.some.inj hget] at he'
      rcases List.mem_append.1 he' with he' | he'
      · cases hold : ring.buckets.get? key with
        | none => simp [Dict.getD, hold] at he'
        | some old => exact h.belongs key old hold e' (by simpa [Dict.getD, hold] using he')
      · exact List.mem_singleton.1 he' ▸ hbelongs
    · exact h.belongs k bucket hget e' he'
  · rw [get?_uriCache_enqueue]
    split_ifs with hk
    · rfl
    · simp only [WriteRing.enqueue, Dict.get?_set] at hget
      split_ifs at hget with hkey
      · exact absurd (hkey ▸ htopic) hk
      · exact h.cached k bucket hget
  · rw [get?_uriCache_enqueue] at hu
    split_ifs at hu
    · cases hold : ring.uriCache.get? topic with
      | none =>
        rw [hold, Option.getD_none] at hu
        exact Option.some.inj hu ▸ huri
      | some u' =>
        rw [hold, Option.getD_some] at hu
        exact h.uris topic u (hold.trans hu)
    · exact h.uris topic u hu

lemma Filed.offer (h : Filed P ring) (huri : P uri) (e : RecordedEvent F) :
    Filed P (ring.offer e uri) := by
  unfold WriteRing.offer
  cases hday : dayOf e.observedAtUs with
  | none => exact h
  | some day =>
    have hnew : Filed P (ring.enqueue ⟨e.topic, e.entityId, isoDate day⟩ e uri) :=
      h.enqueue huri rfl ⟨rfl, day, hday, rfl⟩
    exact Function.Iterate.rec (Filed P) hnew (fun _ hr => hr.dropOneOldest) _

lemma get?_foldl_erase {κ ν : Type*} [DecidableEq κ] (es : List (κ × ν)) {m : Dict κ ν} {k : κ}
    {v : ν} (h : (es.foldl (fun m e => m.erase e.1) m).get? k = some v) : m.get? k = some v := by
  induction es generalizing m with
  | nil => exact h
  | cons e es ih =>
    have := ih h
    rw [Dict.get?_erase] at this
    split_ifs at this
    exact this

lemma Filed.afterDrain (h : Filed P ring) (drainAll : Bool) :
    Filed P (ring.afterDrain drainAll) := by
  unfold WriteRing.afterDrain
  split_ifs
  · exact h.shrink rfl fun key bucket hget => by simp at hget
  · exact h.shrink rfl fun key bucket hget => ⟨bucket, get?_foldl_erase _ hget, List.Subset.refl _⟩

/-- A drained batch holds events of its entity and date, and its uri has `P`. -/
lemma Filed.drained (h : Filed P ring) {drainAll : Bool} {b : Batch F}
    (hb : b ∈ ring.drained drainAll) :
    P b.storageUri ∧ ∀ e ∈ b.events, Belongs b.key e := by
  obtain ⟨entry, hentry, rfl⟩ : ∃ entry ∈ ring.buckets.entries, ring.batchOf entry = b := by
    unfold WriteRing.drained at hb
    split_ifs at hb <;> obtain ⟨entry, hentry, rfl⟩ := List.mem_map.1 hb
    · exact ⟨entry, (List.mem_filter.1 hentry).1, rfl⟩
    · exact ⟨entry, (List.mem_filter.1 hentry).1, rfl⟩
  have hget := Dict.mem_entries.1 hentry
  obtain ⟨u, hu⟩ := Option.isSome_iff_exists.1 (h.cached _ _ hget)
  exact ⟨by simpa [batchOf, Dict.getD, hu] using h.uris _ u hu, h.belongs _ _ hget⟩

/-- The counter counts the events, and no bucket is empty. -/
structure Counted (ring : WriteRing F) : Prop where
  total : (ring.total : ℤ) = ring.buckets.total fun _ bucket => (bucket.length : ℤ)
  nonempty : ∀ key bucket, ring.buckets.get? key = some bucket → bucket ≠ []

lemma counted_empty : Counted (empty : WriteRing F) := ⟨rfl, by simp [empty]⟩

lemma foldl_ne_none {β : Type} {f : Option β → β → Option β} (hf : ∀ best b, f best b ≠ none)
    {bs : List β} (hbs : bs ≠ []) (best : Option β) : bs.foldl f best ≠ none := by
  obtain ⟨init, last, rfl⟩ := (List.eq_nil_or_concat bs).resolve_left hbs
  rw [List.concat_eq_append, List.foldl_append]
  exact hf _ last

lemma largest_ne_none {buckets : List (BucketKey × List (RecordedEvent F))} (h : buckets ≠ []) :
    largest buckets ≠ none := by
  refine foldl_ne_none (fun best b => ?_) h none
  cases best with
  | none => simp
  | some m =>
    dsimp only
    split_ifs <;> simp

/-- While there are events, dropping drops one. -/
lemma Counted.dropOneOldest (h : Counted ring) (hpos : 0 < ring.total) :
    Counted ring.dropOneOldest ∧ ring.dropOneOldest.total = ring.total - 1 := by
  have hentries : ring.buckets.entries ≠ [] := by
    intro hnil
    have htotal := h.total
    simp only [Dict.total, hnil, List.map_nil, List.sum_nil] at htotal
    omega
  obtain ⟨b, hlargest⟩ := Option.ne_none_iff_exists'.1 (largest_ne_none hentries)
  obtain ⟨key, bucket⟩ := b
  have hget := Dict.mem_entries.1 (mem_of_largest hlargest)
  have hshare := Dict.share_of_some (f := fun _ bucket => (List.length bucket : ℤ)) hget
  unfold WriteRing.dropOneOldest
  rw [hlargest]
  match bucket, hget, hshare with
  | [], hget, _ => exact absurd rfl (h.nonempty key [] hget)
  | [e], hget, hshare =>
    refine ⟨⟨?_, fun k b hb => ?_⟩, rfl⟩
    · simp only [Dict.total_erase, hshare, ← h.total, List.length_singleton]
      omega
    · simp only [Dict.get?_erase] at hb
      split_ifs at hb
      exact h.nonempty k b hb
  | e :: e' :: bucket, hget, hshare =>
    refine ⟨⟨?_, fun k b hb => ?_⟩, rfl⟩
    · simp only [Dict.total_set, hshare, ← h.total, List.length_cons]
      omega
    · simp only [Dict.get?_set] at hb
      split_ifs at hb
      · exact Option.some.inj hb ▸ List.cons_ne_nil e' bucket
      · exact h.nonempty k b hb

lemma Counted.iterate (h : Counted ring) {n : ℕ} (hn : n ≤ ring.total) :
    Counted (WriteRing.dropOneOldest^[n] ring) ∧
      (WriteRing.dropOneOldest^[n] ring).total = ring.total - n := by
  induction n with
  | zero => exact ⟨h, rfl⟩
  | succ n ih =>
    obtain ⟨hcounted, htotal⟩ := ih (by omega)
    rw [Function.iterate_succ_apply']
    obtain ⟨hcounted', htotal'⟩ := hcounted.dropOneOldest (by omega)
    exact ⟨hcounted', by omega⟩

lemma Counted.enqueue (h : Counted ring) (key : BucketKey) (e : RecordedEvent F) (uri : Dir) :
    Counted (ring.enqueue key e uri) := by
  refine ⟨?_, fun k b hb => ?_⟩
  · simp only [WriteRing.enqueue, Dict.total_set, ← h.total, List.length_append,
      List.length_singleton]
    cases hold : ring.buckets.get? key with
    | none => simp [Dict.getD, Dict.share_of_none hold, hold]
    | some old =>
      simp only [Dict.getD, Dict.share_of_some hold, hold, Option.getD_some]
      omega
  · simp only [WriteRing.enqueue, Dict.get?_set] at hb
    split_ifs at hb
    · rw [← Option.some.inj hb]
      simp
    · exact h.nonempty k b hb

/-- The loop that keeps the cap ends below it. -/
lemma Counted.offer (h : Counted ring) (hle : ring.total ≤ maxRingSize) (e : RecordedEvent F)
    (uri : Dir) : Counted (ring.offer e uri) ∧ (ring.offer e uri).total ≤ maxRingSize := by
  unfold WriteRing.offer
  cases dayOf e.observedAtUs with
  | none => exact ⟨h, hle⟩
  | some day =>
    have hnew := (h.enqueue ⟨e.topic, e.entityId, isoDate day⟩ e uri).iterate (Nat.sub_le _ maxRingSize)
    exact ⟨hnew.1, by simp only [hnew.2]; omega⟩

/-- Erasing entries takes what they hold off a total. -/
lemma total_foldl_erase {κ ν : Type*} [DecidableEq κ] {f : κ → ν → ℤ} {es : List (κ × ν)}
    (hes : (es.map Prod.fst).Nodup) {m : Dict κ ν} (hm : ∀ e ∈ es, m.get? e.1 = some e.2) :
    (es.foldl (fun m e => m.erase e.1) m).total f = m.total f - (es.map fun e => f e.1 e.2).sum := by
  induction es generalizing m with
  | nil => simp
  | cons e es ih =>
    obtain ⟨hnot, hes⟩ := List.nodup_cons.1 hes
    have hrest : ∀ e' ∈ es, (m.erase e.1).get? e'.1 = some e'.2 := fun e' he' => by
      have hne : e.1 ≠ e'.1 := fun heq => hnot (heq ▸ List.mem_map_of_mem he')
      rw [Dict.get?_erase_of_ne m hne]
      exact hm e' (List.mem_cons_of_mem e he')
    rw [List.foldl_cons, ih hes hrest, Dict.total_erase,
      Dict.share_of_some (hm e List.mem_cons_self), List.map_cons, List.sum_cons]
    omega

lemma Counted.afterDrain (h : Counted ring) (drainAll : Bool) :
    Counted (ring.afterDrain drainAll) ∧ (ring.afterDrain drainAll).total ≤ ring.total := by
  unfold WriteRing.afterDrain
  split_ifs
  · exact ⟨⟨rfl, by simp⟩, Nat.zero_le _⟩
  · have hsub : ring.fullBuckets.Sublist ring.buckets.entries := List.filter_sublist
    have htotal := total_foldl_erase (f := fun _ bucket => (List.length bucket : ℤ))
      (ring.buckets.nodup.sublist (hsub.map Prod.fst))
      (fun e he => Dict.mem_entries.1 (hsub.subset he))
    have hsum : (ring.fullBuckets.map fun b => (b.2.length : ℤ)).sum =
        ((ring.fullBuckets.map fun b => b.2.length).sum : ℕ) := by
      induction ring.fullBuckets with
      | nil => rfl
      | cons b bs ih => simp [ih]
    have hpos := Dict.total_nonneg (f := fun (_ : BucketKey) bucket => (List.length bucket : ℤ))
      (m := ring.withoutFull.buckets) (fun _ _ => by simp)
    have hring := h.total
    simp only [withoutFull] at hpos
    refine ⟨⟨?_, fun k b hb => h.nonempty k b (get?_foldl_erase _ hb)⟩, by simp [withoutFull]⟩
    simp only [withoutFull]
    omega

end WriteRing

/-! ## The files of a run -/

namespace Writer

variable {P : Dir → Prop}

/-- The action concerns a topic whose storage uri has `P`. -/
def StoredAt (P : Dir → Prop) : Action F → Prop
  | .publish _ uri => P uri
  | .flush _ _ => True

variable [PyFloat F]

/-- The ring holds at most `_MAX_RING_SIZE` events, after every run. -/
theorem run_total_le (actions : List (Action F)) : (run actions).ring.total ≤ maxRingSize := by
  have hstep : ∀ (s : Writer F) (a : Action F),
      (s.ring.Counted ∧ s.ring.total ≤ maxRingSize) →
        ((step s a).ring.Counted ∧ (step s a).ring.total ≤ maxRingSize) := by
    intro s a hs
    cases a with
    | publish e uri => exact hs.1.offer hs.2 e uri
    | flush drainAll stamps =>
      have hdrain := hs.1.afterDrain drainAll
      exact ⟨hdrain.1, hdrain.2.trans hs.2⟩
  exact (foldl_invariant hstep ⟨WriteRing.counted_empty, Nat.zero_le _⟩ actions).2

/-- The batches that a run writes, in order. -/
def written (actions : List (Action F)) : List (Write F) := outputs step writes empty actions

/-- The events of the batches that were written. -/
def flushed (actions : List (Action F)) : List (RecordedEvent F) :=
  ((written actions).filter fun w => decide w.Fits).flatMap fun w => w.batch.events

/-- No two files of the run have the same name: the names end in random numbers. -/
def FreshNames (actions : List (Action F)) : Prop := ((written actions).map Write.file).Nodup

/-- The disk is what the written batches make of it. -/
lemma store_run (actions : List (Action F)) :
    (run actions).store = (written actions).foldl Store.write (empty : Writer F).store := by
  refine foldl_outputs Writer.store Store.write (fun s a => ?_) empty actions
  cases a <;> rfl

/-- What is known of a batch on its way to the disk. -/
def Placed (P : Dir → Prop) (w : Write F) : Prop :=
  P w.batch.storageUri ∧ ∀ e ∈ w.batch.events, WriteRing.Belongs w.batch.key e

lemma placed_of_mem_written {actions : List (Action F)} (hat : ∀ a ∈ actions, StoredAt P a) :
    ∀ w ∈ written actions, Placed P w := by
  refine forall_mem_outputs (I := fun s : Writer F => s.ring.Filed P) (fun s a ha hs => ?_)
    (fun s a ha hs w hw => ?_) WriteRing.filed_empty
  · cases a with
    | publish e u =>
      exact hs.offer (hat _ ha) e
    | flush drainAll stamps => exact hs.afterDrain drainAll
  · cases a with
    | publish e u => simp [writes] at hw
    | flush drainAll stamps =>
      obtain ⟨b, hb, rfl⟩ := List.mem_map.1 hw
      exact hs.drained (List.fst_mem_of_mem_zipIdx hb)

end Writer

/-- A file of its own for each batch that fits. -/
lemma entries_foldl_write [PyFloat F] (ws : List (Write F)) {store : Store}
    (hnodup : (ws.map Write.file).Nodup) (hnew : ∀ w ∈ ws, store.files.get? w.file = none) :
    (ws.foldl Store.write store).files.entries = store.files.entries ++
      (ws.filter fun w => decide w.Fits).map fun w => (w.file, w.rows) := by
  induction ws generalizing store with
  | nil => simp
  | cons w ws ih =>
    obtain ⟨hnot, hnodup⟩ := List.nodup_cons.1 hnodup
    have hrest : ∀ w' ∈ ws, (store.write w).files.get? w'.file = none := fun w' hw' => by
      have hne : w.file ≠ w'.file := fun heq => hnot (heq ▸ List.mem_map_of_mem hw')
      have hold := hnew w' (List.mem_cons_of_mem w hw')
      simp only [Store.write]
      split_ifs
      · rwa [Dict.get?_set_of_ne _ _ hne]
      · exact hold
    rw [List.foldl_cons, ih hnodup hrest]
    by_cases hfits : w.Fits
    · simp [Store.write, hfits, Dict.entries_set_of_none (hnew w List.mem_cons_self)]
    · simp [Store.write, hfits]

/-- Whatever is on the disk was written, also where a name was used twice. -/
lemma get?_foldl_write [PyFloat F] (ws : List (Write F)) {store : Store} {f : Dir × String}
    {rows : List Row} (h : (ws.foldl Store.write store).files.get? f = some rows) :
    store.files.get? f = some rows ∨ ∃ w ∈ ws, w.file = f ∧ w.rows = rows := by
  induction ws generalizing store with
  | nil => exact .inl h
  | cons w ws ih =>
    rcases ih h with hold | ⟨w', hw', hfile⟩
    · simp only [Store.write] at hold
      split_ifs at hold
      · rw [Dict.get?_set] at hold
        split_ifs at hold with heq
        · exact .inr ⟨w, List.mem_cons_self, heq, Option.some.inj hold⟩
        · exact .inl hold
      · exact .inl hold
    · exact .inr ⟨w', List.mem_cons_of_mem w hw', hfile⟩

lemma dirs_foldl_write [PyFloat F] (ws : List (Write F)) (store : Store) (d : Dir) :
    d ∈ (ws.foldl Store.write store).dirs ↔ d ∈ store.dirs ∨ ∃ w ∈ ws, w.dir = d := by
  induction ws generalizing store with
  | nil => simp
  | cons w ws ih =>
    rw [List.foldl_cons, ih]
    simp only [Store.write, List.mem_cons, exists_eq_or_imp]
    tauto

namespace Writer

variable [PyFloat F]

/-- With fresh names the disk holds the batches that were written, each in its file. -/
theorem entries_run {actions : List (Action F)} (hfresh : FreshNames actions) :
    (run actions).store.files.entries =
      ((written actions).filter fun w => decide w.Fits).map fun w => (w.file, w.rows) := by
  rw [store_run, entries_foldl_write _ hfresh (fun _ _ => rfl)]
  rfl

lemma mem_written_of_get? {actions : List (Action F)} {f : Dir × String} {rows : List Row}
    (h : (run actions).store.files.get? f = some rows) :
    ∃ w ∈ written actions, w.file = f ∧ w.rows = rows := by
  rw [store_run] at h
  exact (get?_foldl_write _ h).resolve_left (by simp [empty])

/-- The directories that exist are those of the batches. -/
lemma dirs_run (actions : List (Action F)) (d : Dir) :
    d ∈ (run actions).store.dirs ↔ ∃ w ∈ written actions, w.dir = d := by
  rw [store_run, dirs_foldl_write]
  simp [empty]

end Writer

end Evosport.RecordedBus
