/-
The write ring as a ledger: where every event is that was offered.

For one bucket key, the events that have left, in the order in which they left, followed by the
events still held, are the events offered under it, in the order in which they were offered
(`departed_append_held`).  So every offered event is in one place, and a key's events leave in order.
A batch is paired with the storage uri under which its topic was offered first
(`uri_of_departed`).
-/
import Evosport.RecordedBus.Bus
import Mathlib.Algebra.BigOperators.Ring.Finset

namespace Evosport.RecordedBus

open Lib

variable {F : Type}

/-- The bucket of an event; none where `offer` raises. -/
def RecordedEvent.keyOf (e : RecordedEvent F) : Option BucketKey :=
  (dayOf e.observedAtUs).map fun day => ⟨e.topic, e.entityId, isoDate day⟩

namespace WriteRing

/-! ## Operations -/

/-- A call: `drain_all`, or `drain_full_batches` where `drainAll` is false. -/
inductive Op (F : Type) where
  | offer (e : RecordedEvent F) (uri : Dir)
  | drain (drainAll : Bool)

/-- What an operation does to the ring. -/
def apply (ring : WriteRing F) : Op F → WriteRing F
  | .offer e uri => ring.offer e uri
  | .drain drainAll => ring.afterDrain drainAll

/-- An event that was offered, with its bucket and its storage uri. -/
structure Offered (F : Type) where
  key : BucketKey
  event : RecordedEvent F
  storageUri : Dir

/-- An event that has left the ring from its bucket: dropped, or in a batch that is paired with a
storage uri. -/
structure Departure (F : Type) where
  key : BucketKey
  event : RecordedEvent F
  batchUri : Option Dir

/-- What an operation offers to the ring; an event without an entity or a day is not taken. -/
def offeredBy : Op F → List (Offered F)
  | .offer e uri => (e.keyOf.map fun key => ⟨key, e, uri⟩).toList
  | .drain _ => []

/-- What `_drop_one_oldest` drops. -/
def dropped (ring : WriteRing F) : List (Departure F) :=
  match largest ring.buckets.entries with
  | some (key, e :: _) => [⟨key, e, none⟩]
  | _ => []

/-- What the next `n` calls of `_drop_one_oldest` drop. -/
def drops : ℕ → WriteRing F → List (Departure F)
  | 0, _ => []
  | n + 1, ring => ring.dropped ++ drops n ring.dropOneOldest

/-- What leaves the ring in an operation: the events that an offer pushes out, or those that a drain
takes. -/
def departures (ring : WriteRing F) : Op F → List (Departure F)
  | .offer e uri =>
    match e.keyOf with
    | none => []
    | some key =>
      let ring := ring.enqueue key e uri
      drops (ring.total - maxRingSize) ring
  | .drain drainAll => (ring.drained drainAll).flatMap fun b =>
      b.events.map fun e => ⟨b.key, e, some b.storageUri⟩

/-- The ring after a sequence of calls. -/
def after (ops : List (Op F)) : WriteRing F := ops.foldl apply empty

/-- The events that a sequence of calls has offered, in order. -/
def offered (ops : List (Op F)) : List (Offered F) := ops.flatMap offeredBy

/-- The events that have left the ring, in order. -/
def departed (ops : List (Op F)) : List (Departure F) := outputs apply departures empty ops

/-! ## One key -/

/-- The events that the ring holds under a key, oldest first. -/
def heldAt (ring : WriteRing F) (key : BucketKey) : List (RecordedEvent F) :=
  ring.buckets.getD key []

/-- What was offered under a key. -/
def offeredAt (os : List (Offered F)) (key : BucketKey) : List (Offered F) :=
  os.filter fun o => decide (o.key = key)

/-- What has left under a key. -/
def departedAt (ds : List (Departure F)) (key : BucketKey) : List (Departure F) :=
  ds.filter fun d => decide (d.key = key)

variable {ring : WriteRing F} {key : BucketKey}

lemma apply_offer (e : RecordedEvent F) (uri : Dir) :
    ring.apply (.offer e uri) = match e.keyOf with
      | none => ring
      | some key => dropOneOldest^[(ring.enqueue key e uri).total - maxRingSize]
          (ring.enqueue key e uri) := by
  rw [apply, WriteRing.offer, RecordedEvent.keyOf]
  cases dayOf e.observedAtUs <;> rfl

/-- What is dropped was at the head of its bucket. -/
lemma dropped_append_heldAt :
    (departedAt ring.dropped key).map Departure.event ++ ring.dropOneOldest.heldAt key =
      ring.heldAt key := by
  unfold dropped dropOneOldest
  cases hlargest : largest ring.buckets.entries with
  | none => rfl
  | some b =>
    obtain ⟨k, bucket⟩ := b
    have hget := Dict.mem_entries.1 (mem_of_largest hlargest)
    match bucket, hget with
    | [], _ => rfl
    | [e], hget =>
      by_cases hk : k = key
      · subst hk
        simp [departedAt, heldAt, Dict.getD, hget]
      · simp [departedAt, heldAt, Dict.getD, hk, Dict.get?_erase_of_ne _ hk]
    | e :: e' :: bucket, hget =>
      by_cases hk : k = key
      · subst hk
        simp [departedAt, heldAt, Dict.getD, hget]
      · simp [departedAt, heldAt, Dict.getD, hk, Dict.get?_set_of_ne _ _ hk]

lemma drops_append_heldAt (n : ℕ) (ring : WriteRing F) :
    (departedAt (drops n ring) key).map Departure.event ++ (dropOneOldest^[n] ring).heldAt key =
      ring.heldAt key := by
  induction n generalizing ring with
  | zero => rfl
  | succ n ih =>
    rw [drops, departedAt, List.filter_append, List.map_append, List.append_assoc]
    exact (congrArg _ (ih ring.dropOneOldest)).trans dropped_append_heldAt

lemma heldAt_enqueue (k : BucketKey) (e : RecordedEvent F) (uri : Dir) :
    (ring.enqueue k e uri).heldAt key =
      if k = key then ring.heldAt key ++ [e] else ring.heldAt key := by
  simp only [heldAt, enqueue, Dict.getD_set]
  split_ifs with hk
  · rw [hk]
  · rfl

/-- A bucket of a list of buckets whose keys differ, by its events. -/
lemma departedAt_flatMap (bs : List (BucketKey × List (RecordedEvent F)))
    (hbs : (bs.map Prod.fst).Nodup) (uri : BucketKey → Dir) :
    (departedAt (bs.flatMap fun b => b.2.map fun e => ⟨b.1, e, some (uri b.1)⟩) key).map
      Departure.event = (Dict.lookup key bs).getD [] := by
  induction bs with
  | nil => rfl
  | cons b bs ih =>
    obtain ⟨k, bucket⟩ := b
    obtain ⟨hnot, hbs⟩ := List.nodup_cons.1 hbs
    rw [List.flatMap_cons, departedAt, List.filter_append, List.map_append]
    have hrest := ih hbs
    rw [departedAt] at hrest
    rw [hrest]
    by_cases hk : k = key
    · subst hk
      have hnone : Dict.lookup k bs = none := Dict.lookup_eq_none.2 hnot
      simp [Dict.lookup, hnone, List.filter_map, Function.comp_def]
    · simp [Dict.lookup, hk, List.filter_map, Function.comp_def]

lemma lookup_filter {κ ν : Type*} [DecidableEq κ] {p : ν → Bool} {es : List (κ × ν)} {k : κ}
    (hes : (es.map Prod.fst).Nodup) :
    Dict.lookup k (es.filter fun e => p e.2) = (Dict.lookup k es).filter p := by
  refine Option.ext fun v => ?_
  have hsub : (es.filter fun e => p e.2).Sublist es := List.filter_sublist
  rw [Dict.lookup_eq_some (hes.sublist (hsub.map Prod.fst)), Option.filter_eq_some_iff,
    Dict.lookup_eq_some hes, List.mem_filter]

lemma get?_foldl_erase_eq {κ ν : Type*} [DecidableEq κ] (es : List (κ × ν)) (m : Dict κ ν) (k : κ) :
    (es.foldl (fun m e => m.erase e.1) m).get? k =
      if k ∈ es.map Prod.fst then none else m.get? k := by
  induction es generalizing m with
  | nil => simp
  | cons e es ih =>
    rw [List.foldl_cons, ih, Dict.get?_erase]
    by_cases hk : e.1 = k
    · simp [hk]
    · have hmem : k ∈ (e :: es).map Prod.fst ↔ k ∈ es.map Prod.fst := by simp [Ne.symm hk]
      simp only [hk, hmem, if_false]

lemma lookup_fullBuckets : Dict.lookup key ring.fullBuckets =
    (ring.buckets.get? key).filter fun bucket => decide (flushBatchSize ≤ bucket.length) :=
  lookup_filter (p := fun bucket => decide (flushBatchSize ≤ bucket.length)) ring.buckets.nodup

/-- `drain_full_batches` leaves a bucket or takes all of it. -/
lemma get?_withoutFull : ring.withoutFull.buckets.get? key =
    (ring.buckets.get? key).filter fun bucket => !decide (flushBatchSize ≤ bucket.length) := by
  simp only [withoutFull, get?_foldl_erase_eq]
  have hmem : key ∈ ring.fullBuckets.map Prod.fst ↔
      ((ring.buckets.get? key).filter fun bucket =>
        decide (flushBatchSize ≤ bucket.length)) ≠ none := by
    rw [← lookup_fullBuckets, Ne, Dict.lookup_eq_none, not_not]
  cases hget : ring.buckets.get? key with
  | none => simp
  | some bucket =>
    rw [hget] at hmem
    by_cases hfull : flushBatchSize ≤ bucket.length
    · simp [hmem, hfull, Option.filter_some]
    · simp [hmem, hfull, Option.filter_some]

/-- A drain takes whole buckets. -/
lemma drained_append_heldAt (drainAll : Bool) :
    (departedAt (ring.departures (.drain drainAll)) key).map Departure.event ++
      (ring.afterDrain drainAll).heldAt key = ring.heldAt key := by
  have hmap : ∀ bs : List (BucketKey × List (RecordedEvent F)),
      ((bs.map ring.batchOf).flatMap fun b =>
          b.events.map fun e => (⟨b.key, e, some b.storageUri⟩ : Departure F)) =
        bs.flatMap fun b => b.2.map fun e => ⟨b.1, e, some (ring.uriCache.getD b.1.topic [])⟩ := by
    intro bs
    rw [List.flatMap_map]
    rfl
  have hsub : ∀ p : BucketKey × List (RecordedEvent F) → Bool,
      ((ring.buckets.entries.filter p).map Prod.fst).Nodup :=
    fun p => ring.buckets.nodup.sublist (List.filter_sublist.map Prod.fst)
  cases drainAll with
  | true =>
    have hlookup := lookup_filter (p := fun bucket => decide (bucket ≠ [])) (k := key)
      ring.buckets.nodup
    simp only [departures, WriteRing.drained, WriteRing.afterDrain, if_true]
    rw [hmap, departedAt_flatMap _ (hsub _) fun key => ring.uriCache.getD key.topic [], hlookup]
    simp only [heldAt, Dict.getD, Dict.get?_empty, Option.getD_none, List.append_nil]
    show ((ring.buckets.get? key).filter _).getD [] = _
    cases ring.buckets.get? key with
    | none => rfl
    | some bucket => cases bucket <;> rfl
  | false =>
    simp only [departures, WriteRing.drained, WriteRing.afterDrain, Bool.false_eq_true, if_false]
    rw [hmap, departedAt_flatMap ring.fullBuckets (hsub _)
      fun key => ring.uriCache.getD key.topic [], lookup_fullBuckets]
    simp only [heldAt, Dict.getD, get?_withoutFull]
    cases ring.buckets.get? key with
    | none => rfl
    | some bucket =>
      by_cases hfull : flushBatchSize ≤ bucket.length
      · simp [hfull, Option.filter_some]
      · simp [hfull, Option.filter_some]

/-- For each key, a call takes events from the head of the bucket and puts what it offers at its
end. -/
lemma departures_append_heldAt (op : Op F) :
    (departedAt (ring.departures op) key).map Departure.event ++ (ring.apply op).heldAt key =
      ring.heldAt key ++ (offeredAt (offeredBy op) key).map Offered.event := by
  cases op with
  | offer e uri =>
    rw [apply_offer, departures, offeredBy]
    cases e.keyOf with
    | none => simp [departedAt, offeredAt]
    | some k =>
      refine (drops_append_heldAt _ _).trans ?_
      rw [heldAt_enqueue]
      by_cases hk : k = key
      · simp [hk, offeredAt]
      · simp [hk, offeredAt]
  | drain drainAll =>
    refine (drained_append_heldAt drainAll).trans ?_
    simp [offeredBy, offeredAt]

/-- What has left under a key and what is held under it is what was offered under it, in order. -/
lemma departed_append_held (ops : List (Op F)) (key : BucketKey) :
    (departedAt (departed ops) key).map Departure.event ++ (after ops).heldAt key =
      (offeredAt (offered ops) key).map Offered.event := by
  induction ops using List.reverseRecOn with
  | nil => rfl
  | append_singleton ops op ih =>
    have hdeparted : departedAt (departed (ops ++ [op])) key =
        departedAt (departed ops) key ++ departedAt ((after ops).departures op) key := by
      simp [departed, departedAt, outputs_append, outputs, after]
    have hoffered : offeredAt (offered (ops ++ [op])) key =
        offeredAt (offered ops) key ++ offeredAt (offeredBy op) key := by
      simp [offered, offeredAt]
    have hafter : after (ops ++ [op]) = (after ops).apply op := by simp [after]
    rw [hdeparted, hoffered, hafter, List.map_append, List.map_append, List.append_assoc,
      departures_append_heldAt, ← List.append_assoc, ih]

/-! ## All keys -/

lemma after_concat (ops : List (Op F)) (op : Op F) :
    after (ops ++ [op]) = (after ops).apply op := by
  simp [after]

lemma offered_concat (ops : List (Op F)) (op : Op F) :
    offered (ops ++ [op]) = offered ops ++ offeredBy op := by
  simp [offered]

lemma offered_of_start {pre ops : List (Op F)} (h : pre <+: ops) :
    offered pre <+: offered ops := by
  obtain ⟨rest, rfl⟩ := h
  exact ⟨offered rest, by simp [offered]⟩

lemma mem_departed {ops : List (Op F)} {d : Departure F} (h : d ∈ departed ops) :
    ∃ pre op, pre ++ [op] <+: ops ∧ d ∈ (after pre).departures op := by
  induction ops using List.reverseRecOn with
  | nil => cases h
  | append_singleton ops op ih =>
    rw [departed, outputs_append] at h
    rcases List.mem_append.1 h with h | h
    · obtain ⟨pre, op', hpre, hd⟩ := ih h
      exact ⟨pre, op', hpre.trans (List.prefix_append ops [op]), hd⟩
    · refine ⟨ops, op, List.prefix_refl _, ?_⟩
      simpa [outputs, after] using h

lemma keyOf_of_mem_offered {ops : List (Op F)} {o : Offered F} (h : o ∈ offered ops) :
    o.event.keyOf = some o.key := by
  obtain ⟨op, -, ho⟩ := List.mem_flatMap.1 h
  cases op with
  | offer e uri =>
    rw [offeredBy, Option.mem_toList, Option.map_eq_some_iff] at ho
    obtain ⟨key, hkey, rfl⟩ := ho
    exact hkey
  | drain drainAll => cases ho

/-- Whatever has left or is held was offered under its key. -/
lemma offered_of_mem_places {ops : List (Op F)} {key : BucketKey} {e : RecordedEvent F}
    (h : e ∈ (departedAt (departed ops) key).map Departure.event ++ (after ops).heldAt key) :
    ∃ o ∈ offered ops, o.key = key ∧ o.event = e := by
  rw [departed_append_held] at h
  obtain ⟨o, ho, rfl⟩ := List.mem_map.1 h
  obtain ⟨hmem, hkey⟩ := List.mem_filter.1 ho
  exact ⟨o, hmem, of_decide_eq_true hkey, rfl⟩

lemma keyOf_of_mem_departed {ops : List (Op F)} {d : Departure F} (h : d ∈ departed ops) :
    d.event.keyOf = some d.key := by
  have hplace : d.event ∈ (departedAt (departed ops) d.key).map Departure.event :=
    List.mem_map_of_mem (List.mem_filter.2 ⟨h, decide_eq_true rfl⟩)
  obtain ⟨o, ho, hkey, hevent⟩ := offered_of_mem_places (List.mem_append_left _ hplace)
  rw [← hkey, ← hevent]
  exact keyOf_of_mem_offered ho

/-! ## The counter -/

lemma counted_after (ops : List (Op F)) :
    (after ops).Counted ∧ (after ops).total ≤ maxRingSize := by
  refine foldl_invariant (I := fun ring => Counted ring ∧ ring.total ≤ maxRingSize)
    (fun ring op h => ?_) ⟨counted_empty, Nat.zero_le _⟩ ops
  cases op with
  | offer e uri => exact h.1.offer h.2 e uri
  | drain drainAll =>
    have hdrain := h.1.afterDrain drainAll
    exact ⟨hdrain.1, hdrain.2.trans h.2⟩

/-- The number of events held. -/
def held (ring : WriteRing F) : ℕ := (ring.buckets.entries.map fun b => b.2.length).sum

lemma Counted.total_eq_held (h : Counted ring) : ring.total = ring.held := by
  have hcast : (ring.held : ℤ) = ring.buckets.total fun _ bucket => (bucket.length : ℤ) := by
    rw [held, Dict.total, Nat.cast_list_sum, List.map_map]
    rfl
  have htotal := h.total
  omega

/-- A call drops an event only if it is an offer and the ring is at its cap. -/
lemma total_of_dropped {op : Op F} (hle : ring.total ≤ maxRingSize) {d : Departure F}
    (hd : d ∈ ring.departures op) (hdropped : d.batchUri = none) :
    (∃ e uri, op = .offer e uri) ∧ ring.total = maxRingSize := by
  cases op with
  | offer e uri =>
    refine ⟨⟨e, uri, rfl⟩, ?_⟩
    rw [departures] at hd
    cases hkey : e.keyOf with
    | none => simp [hkey] at hd
    | some key =>
      have hnew : (ring.enqueue key e uri).total = ring.total + 1 := rfl
      by_contra hne
      have hzero : (ring.enqueue key e uri).total - maxRingSize = 0 := by omega
      simp [hkey, hzero, drops] at hd
  | drain drainAll =>
    obtain ⟨b, -, hb⟩ := List.mem_flatMap.1 hd
    obtain ⟨e, -, rfl⟩ := List.mem_map.1 hb
    cases hdropped

/-! ## The storage uris -/

/-- The storage uri of the first event of a topic. -/
def firstUri (os : List (Offered F)) (topic : String) : Option Dir :=
  (os.find? fun o => decide (o.key.topic = topic)).map Offered.storageUri

lemma firstUri_of_start {os os' : List (Offered F)} {topic : String} {uri : Dir} (h : os <+: os')
    (huri : firstUri os topic = some uri) : firstUri os' topic = some uri := by
  obtain ⟨rest, rfl⟩ := h
  obtain ⟨o, ho, rfl⟩ := Option.map_eq_some_iff.1 huri
  rw [firstUri, List.find?_append, ho]
  rfl

lemma uriCache_dropOneOldest : ring.dropOneOldest.uriCache = ring.uriCache := by
  obtain heq | ⟨key, e, bucket, -, heq⟩ := dropOneOldest_cases ring <;> rw [heq]

lemma uriCache_iterate (n : ℕ) : (dropOneOldest^[n] ring).uriCache = ring.uriCache := by
  induction n with
  | zero => rfl
  | succ n ih => rw [Function.iterate_succ_apply', uriCache_dropOneOldest, ih]

lemma uriCache_afterDrain (drainAll : Bool) :
    (ring.afterDrain drainAll).uriCache = ring.uriCache := by
  cases drainAll <;> rfl

/-- The cache holds the first storage uri of every topic. -/
lemma get?_uriCache_after (ops : List (Op F)) (topic : String) :
    (after ops).uriCache.get? topic = firstUri (offered ops) topic := by
  induction ops using List.reverseRecOn with
  | nil => rfl
  | append_singleton ops op ih =>
    rw [after_concat, offered_concat]
    cases op with
    | offer e uri =>
      rw [apply_offer, offeredBy, RecordedEvent.keyOf]
      cases dayOf e.observedAtUs with
      | none => simpa using ih
      | some day =>
        simp only [Option.map_some, Option.toList_some, uriCache_iterate, get?_uriCache_enqueue, ih]
        rw [firstUri, firstUri, List.find?_append]
        by_cases htopic : topic = e.topic
        · cases (offered ops).find? fun o => decide (o.key.topic = topic) with
          | none => simp [htopic]
          | some o => simp [htopic]
        · simp [htopic, Ne.symm htopic]
    | drain drainAll =>
      rw [show (after ops).apply (.drain drainAll) = (after ops).afterDrain drainAll from rfl,
        uriCache_afterDrain, ih]
      simp [offeredBy]

lemma firstUri_isSome {os : List (Offered F)} {o : Offered F} (h : o ∈ os) :
    ∃ uri, firstUri os o.key.topic = some uri := by
  have hfound : (os.find? fun o' => decide (o'.key.topic = o.key.topic)).isSome :=
    List.find?_isSome.2 ⟨o, h, decide_eq_true rfl⟩
  obtain ⟨o', ho'⟩ := Option.isSome_iff_exists.1 hfound
  exact ⟨o'.storageUri, by rw [firstUri, ho']; rfl⟩

lemma batchUri_of_dropped {d : Departure F} (h : d ∈ ring.dropped) : d.batchUri = none := by
  unfold dropped at h
  split at h
  · obtain rfl := List.mem_singleton.1 h
    rfl
  · cases h

lemma batchUri_of_drops {n : ℕ} {d : Departure F} (h : d ∈ drops n ring) : d.batchUri = none := by
  induction n generalizing ring with
  | zero => cases h
  | succ n ih =>
    rcases List.mem_append.1 h with h | h
    · exact batchUri_of_dropped h
    · exact ih h

lemma batchUri_of_offer {e : RecordedEvent F} {uri : Dir} {d : Departure F}
    (h : d ∈ ring.departures (.offer e uri)) : d.batchUri = none := by
  rw [departures] at h
  cases hkey : e.keyOf with
  | none => simp [hkey] at h
  | some key => exact batchUri_of_drops (by simpa [hkey] using h)

/-- A batch is a bucket of the ring with the uri in the cache. -/
lemma mem_drained {drainAll : Bool} {b : Batch F} (h : b ∈ ring.drained drainAll) :
    ring.heldAt b.key = b.events ∧ b.storageUri = ring.uriCache.getD b.key.topic [] := by
  obtain ⟨entry, hentry, rfl⟩ : ∃ entry ∈ ring.buckets.entries, ring.batchOf entry = b := by
    unfold WriteRing.drained at h
    split_ifs at h <;> obtain ⟨entry, hentry, rfl⟩ := List.mem_map.1 h
    · exact ⟨entry, (List.mem_filter.1 hentry).1, rfl⟩
    · exact ⟨entry, (List.mem_filter.1 hentry).1, rfl⟩
  refine ⟨?_, rfl⟩
  show (ring.buckets.get? entry.1).getD [] = entry.2
  rw [Dict.mem_entries.1 hentry]
  rfl

/-- A batch is paired with the first storage uri of its topic. -/
lemma uri_of_departed {ops : List (Op F)} {d : Departure F} (h : d ∈ departed ops) {uri : Dir}
    (huri : d.batchUri = some uri) : firstUri (offered ops) d.key.topic = some uri := by
  obtain ⟨pre, op, hpre, hd⟩ := mem_departed h
  refine firstUri_of_start (offered_of_start ((List.prefix_append pre [op]).trans hpre)) ?_
  cases op with
  | offer e uri' =>
    rw [batchUri_of_offer hd] at huri
    cases huri
  | drain drainAll =>
    obtain ⟨b, hb, hd⟩ := List.mem_flatMap.1 hd
    obtain ⟨e, he, rfl⟩ := List.mem_map.1 hd
    obtain rfl := Option.some.inj huri
    obtain ⟨hevents, hcache⟩ := mem_drained hb
    have hplace : e ∈ (departedAt (departed pre) b.key).map Departure.event ++
        (after pre).heldAt b.key := List.mem_append_right _ (hevents ▸ he)
    obtain ⟨o, ho, hkey, -⟩ := offered_of_mem_places hplace
    obtain ⟨uri, hfirst⟩ := firstUri_isSome ho
    rw [hkey] at hfirst
    rw [hcache, Dict.getD, get?_uriCache_after, hfirst]
    rfl

/-! ## The ledger -/

/-- What the ring guarantees of a sequence of calls: what was offered to a bucket has left it or is
in it, in its order; events are dropped at the cap only; and a batch goes to the storage that was
first offered with its topic. -/
structure Conserves (ops : List (Op F)) : Prop where
  places : ∀ key, (departedAt (departed ops) key).map Departure.event ++ (after ops).heldAt key =
    (offeredAt (offered ops) key).map Offered.event
  keys : ∀ d ∈ departed ops, d.event.keyOf = some d.key
  dropsAtCap : ∀ pre op, pre ++ [op] <+: ops → ∀ d ∈ (after pre).departures op,
    d.batchUri = none → (∃ e uri, op = .offer e uri) ∧ (after pre).total = maxRingSize
  total : (after ops).total = (after ops).held
  cap : (after ops).total ≤ maxRingSize
  uris : ∀ d ∈ departed ops, ∀ uri, d.batchUri = some uri →
    firstUri (offered ops) d.key.topic = some uri

theorem conserves (ops : List (Op F)) : Conserves ops where
  places := departed_append_held ops
  keys _ hd := keyOf_of_mem_departed hd
  dropsAtCap pre _ _ _ hd hdropped := total_of_dropped (counted_after pre).2 hd hdropped
  total := (counted_after ops).1.total_eq_held
  cap := (counted_after ops).2
  uris _ hd _ huri := uri_of_departed hd huri

/-- The `n`-th event to leave under a key, if it leaves in a batch, is paired with the uri with which
the `n`-th event was offered under this key. -/
def PairedAsOffered (ops : List (Op F)) : Prop :=
  ∀ (key : BucketKey) (n : ℕ) (d : Departure F) (o : Offered F), (departedAt (departed ops) key)[n]? = some d →
    (offeredAt (offered ops) key)[n]? = some o → ∀ uri, d.batchUri = some uri → uri = o.storageUri

/-- Two trades of a topic whose storage has moved in between. -/
def movedStorage : List (Op Unit) :=
  [.offer ⟨trade 10, valid_trade_10⟩ ["old", "wallet.trade"],
    .offer ⟨trade 20, valid_trade_20⟩ ["new", "wallet.trade"], .drain true]

/-- Below the cap an offer drops nothing. -/
lemma offer_below (ring : WriteRing F) {e : RecordedEvent F} (uri : Dir) (hkey : e.keyOf = some key)
    (hbelow : ring.total < maxRingSize) :
    ring.apply (.offer e uri) = ring.enqueue key e uri ∧
      ring.departures (.offer e uri) = [] := by
  have hzero : (ring.enqueue key e uri).total - maxRingSize = 0 := Nat.sub_eq_zero_of_le hbelow
  refine ⟨?_, ?_⟩
  · rw [apply_offer, hkey]
    simp only [hzero, Function.iterate_zero, id_eq]
  · rw [departures, hkey]
    simp only [hzero, drops]

/-- The bucket of the trades. -/
def tradeKey : BucketKey := ⟨"wallet.trade", "0xab", "2024-01-01"⟩

lemma keyOf_trade_10 : (⟨trade 10, valid_trade_10⟩ : RecordedEvent Unit).keyOf = some tradeKey := by
  decide +kernel

lemma keyOf_trade_20 : (⟨trade 20, valid_trade_20⟩ : RecordedEvent Unit).keyOf = some tradeKey := by
  decide +kernel

theorem movedStorage_not_paired : ¬ PairedAsOffered movedStorage := by
  intro h
  have hdeparted : departed movedStorage =
      [⟨tradeKey, ⟨trade 10, valid_trade_10⟩, some ["old", "wallet.trade"]⟩,
        ⟨tradeKey, ⟨trade 20, valid_trade_20⟩, some ["old", "wallet.trade"]⟩] := by
    obtain ⟨happly, hdrop⟩ := offer_below empty ["old", "wallet.trade"]
      keyOf_trade_10 (by decide)
    obtain ⟨happly', hdrop'⟩ := offer_below
      (empty.enqueue tradeKey ⟨trade 10, valid_trade_10⟩ ["old", "wallet.trade"])
      ["new", "wallet.trade"] keyOf_trade_20 (by decide)
    simp only [movedStorage, departed, outputs, happly, hdrop, happly', hdrop', List.nil_append]
    rfl
  have hoffered : offered movedStorage =
      [⟨tradeKey, ⟨trade 10, valid_trade_10⟩, ["old", "wallet.trade"]⟩,
        ⟨tradeKey, ⟨trade 20, valid_trade_20⟩, ["new", "wallet.trade"]⟩] := by
    simp [movedStorage, offered, offeredBy, keyOf_trade_10, keyOf_trade_20]
  have hpaired := h tradeKey 1 _ _ (by rw [hdeparted]; rfl) (by rw [hoffered]; rfl) _ rfl
  simp at hpaired

end WriteRing

end Evosport.RecordedBus
