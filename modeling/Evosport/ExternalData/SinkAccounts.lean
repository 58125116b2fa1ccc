/-
The recording sink accounts for every row, unless a part is interrupted.

Between two steps of a flush the rows of the part in flight are in no list of `_buf`, but
`_buffered_rows` still counts them; once the part is filed they are on disk and still counted.
`pendingRows` and `unfiledRows` are these two amounts.  With them the books of the sink balance
in every state (`Reconciled`), and each operation of the sink is one lemma about them.  The
sequence numbers lie over the names in their folder, except that of a part which was filed and
not yet settled.

Three steps break this.  A cancelled flush never settles its part.  A part that fails after
`_drop_oldest` took the list of its key has nowhere to put its rows back.  A folder that cannot
be listed counts as empty.
-/
import Evosport.ExternalData.BookSink
import Mathlib.Algebra.Order.Group.Int
import Mathlib.Data.List.Induction

namespace Evosport.ExternalData

open Lib

variable {ρ : Type}

/-- The rows of the part files. -/
def rowsIn (files : PartFiles ρ) : ℤ := files.total fun _ rows => rows.length

/-- The total length of the buffers. -/
def BookSink.inBuffers (s : BookSink ρ) : ℤ := s.buf.total fun _ rows => rows.length

namespace World

/-- The accounts of the sink, `base` rows having been in the part files before. -/
structure Balanced (base : ℤ) (w : World ρ) : Prop where
  rows : base + w.accepted = rowsIn w.files + w.removed + w.sink.inBuffers + w.sink.dropped
  buffered : w.sink.bufferedRows = w.sink.inBuffers
  replaced : w.replaced = []

/-- Whenever a run over `events` is quiet, the accounts are in order. -/
def AccountsForRows (files : PartFiles ρ) (events : List (Event ρ)) : Prop :=
  ∀ pre, pre <+: events → (pre.foldl step (init files)).Quiet →
    (pre.foldl step (init files)).Balanced (rowsIn files)

/-- No flush is cancelled while it waits for a part, a failed part still finds the list of its
key, and a folder that cannot be listed has no part of the key. -/
def Sound (w : World ρ) : Event ρ → Prop
  | .cancel => w.inFlight = none
  | .resume _ => ∀ p ∈ w.inFlight, p.stage = .failed → p.key ∈ w.sink.buf.keys
  | .number false => ∀ p ∈ w.inFlight, p.stage = .started → p.seq = 0 →
      ∀ name ∈ w.files.keys, name.key ≠ p.key
  | _ => True

end World

/-! ## Buffers -/

namespace BookSink

lemma inBuffers_set (s : BookSink ρ) (key : BufKey) (rows : List (Row ρ)) :
    (s.buf.set key rows).total (fun _ rows => (rows.length : ℤ)) =
      s.inBuffers - (s.buf.getD key []).length + rows.length := by
  rw [Dict.total_set, inBuffers, Dict.share, Dict.getD]
  cases s.buf.get? key <;> rfl

lemma inBuffers_erase (s : BookSink ρ) (key : BufKey) :
    (s.buf.erase key).total (fun _ rows => (rows.length : ℤ)) =
      s.inBuffers - (s.buf.getD key []).length := by
  rw [Dict.total_erase, inBuffers, Dict.share, Dict.getD]
  cases s.buf.get? key <;> rfl

lemma inBuffers_nonneg (s : BookSink ρ) : 0 ≤ s.inBuffers :=
  Dict.total_nonneg fun _ rows => Int.natCast_nonneg rows.length

/-- What is counted as buffered and is in no buffer. -/
def excess (s : BookSink ρ) : ℤ := s.bufferedRows - s.inBuffers

/-- The rows in the buffers and the rows given up. -/
def held (s : BookSink ρ) : ℤ := s.inBuffers + s.dropped

/-- `s'` counts and holds what `s` does, and its sequence numbers are of `s`; what is left alone by
the steps that only move a flush on. -/
structure SameBooks (s s' : BookSink ρ) : Prop where
  excess : s'.excess = s.excess
  held : s'.held = s.held
  partSeq : ∀ key n, s'.partSeq.get? key = some n → s.partSeq.get? key = some n

lemma SameBooks.refl (s : BookSink ρ) : SameBooks s s := ⟨rfl, rfl, fun _ _ h => h⟩

lemma excess_buffer (kind : Data.Kind) (s : BookSink ρ) (row : Row ρ) :
    (s.buffer kind row).excess = s.excess := by
  have htotal := s.inBuffers_set (kind, bucketOf row.observedAtUs)
    (s.buf.getD (kind, bucketOf row.observedAtUs) [] ++ [row])
  simp only [List.length_append, List.length_singleton] at htotal
  simp only [excess, inBuffers, buffer] at htotal ⊢
  omega

lemma held_buffer (kind : Data.Kind) (s : BookSink ρ) (row : Row ρ) :
    (s.buffer kind row).held = s.held + 1 := by
  have htotal := s.inBuffers_set (kind, bucketOf row.observedAtUs)
    (s.buf.getD (kind, bucketOf row.observedAtUs) [] ++ [row])
  simp only [List.length_append, List.length_singleton] at htotal
  simp only [held, inBuffers, buffer] at htotal ⊢
  omega

lemma dropOldest_same (s : BookSink ρ) : SameBooks s s.dropOldest := by
  rw [dropOldest]
  split
  · exact .refl _
  · rename_i oldest _
    have htotal := s.inBuffers_erase oldest
    refine ⟨?_, ?_, fun _ _ h => h⟩
    · simp only [excess, inBuffers] at htotal ⊢
      omega
    · simp only [held, inBuffers] at htotal ⊢
      omega

/-- The rows of a batch are counted and held, one by one. -/
lemma foldl_buffer (kind : Data.Kind) (s : BookSink ρ) (rows : List (Row ρ)) :
    (rows.foldl (buffer kind) s).excess = s.excess ∧
      (rows.foldl (buffer kind) s).held = s.held + rows.length ∧
      (rows.foldl (buffer kind) s).partSeq = s.partSeq := by
  induction rows generalizing s with
  | nil => simp
  | cons row rows ih =>
    obtain ⟨hexcess, hheld, hseq⟩ := ih (s.buffer kind row)
    rw [excess_buffer] at hexcess
    rw [held_buffer] at hheld
    refine ⟨hexcess, ?_, hseq⟩
    rw [List.foldl_cons, hheld, List.length_cons]
    push_cast
    omega

/-- What `write` does after it has buffered its rows. -/
lemma write_same (s : BookSink ρ) (rows : List (RawRow ρ)) (kind : String) :
    SameBooks ((rows.filterMap convertRow).foldl
      (buffer (if kind = "delta" then .deltas else .snapshots)) s) (s.write rows kind) := by
  rw [write]
  split_ifs
  · exact dropOldest_same _
  · exact .refl _
  · exact dropOldest_same _
  · exact .refl _

lemma excess_write (s : BookSink ρ) (rows : List (RawRow ρ)) (kind : String) :
    (s.write rows kind).excess = s.excess :=
  (s.write_same rows kind).excess.trans (foldl_buffer _ _ _).1

lemma held_write (s : BookSink ρ) (rows : List (RawRow ρ)) (kind : String) :
    (s.write rows kind).held = s.held + (rows.filterMap convertRow).length :=
  (s.write_same rows kind).held.trans (foldl_buffer _ _ _).2.1

lemma partSeq_write {s : BookSink ρ} {rows : List (RawRow ρ)} {kind : String} {key : BufKey}
    {n : ℕ} (h : (s.write rows kind).partSeq.get? key = some n) :
    s.partSeq.get? key = some n := by
  have hfold := (s.write_same rows kind).partSeq key n h
  rwa [(foldl_buffer _ _ _).2.2] at hfold

/-- A key without rows goes. -/
lemma forget_same {s : BookSink ρ} {key : BufKey} (h : s.buf.getD key [] = []) :
    SameBooks s (s.forget key) := by
  have htotal := s.inBuffers_erase key
  rw [h, List.length_nil] at htotal
  refine ⟨?_, ?_, fun k n hk => ?_⟩
  · simp only [excess, inBuffers, forget] at htotal ⊢
    omega
  · simp only [held, inBuffers, forget] at htotal ⊢
    omega
  · rw [forget, Dict.get?_erase] at hk
    split at hk
    · cases hk
    · exact hk

lemma closeWindow_same (s : BookSink ρ) (key : BufKey) (now : ℤ) :
    SameBooks s (s.closeWindow key now) := by
  rw [closeWindow]
  split
  · rename_i hclosed
    exact forget_same (List.isEmpty_iff.1 hclosed.2)
  · exact .refl s

end BookSink

/-! ## The flush -/

/-- The rows that a flush has taken out of the buffers and not settled. -/
def pendingRows (f : Option (Flush ρ)) : ℤ := (f.bind Flush.part).elim 0 fun p => p.rows.length

/-- A part that is on disk and not settled. -/
def PartWrite.filed (p : PartWrite ρ) : Bool :=
  match p.stage with
  | .done _ => true
  | _ => false

/-- The rows that a flush has taken out of the buffers and not filed. -/
def unfiledRows (f : Option (Flush ρ)) : ℤ :=
  (f.bind Flush.part).elim 0 fun p => if p.filed then 0 else p.rows.length

lemma pendingRows_writing (part : PartWrite ρ) (rest : List BufKey) :
    pendingRows (some (.writing part rest)) = part.rows.length := rfl

lemma unfiledRows_writing (part : PartWrite ρ) (rest : List BufKey) :
    unfiledRows (some (.writing part rest)) = if part.filed then 0 else (part.rows.length : ℤ) :=
  rfl

/-- The parts of a key have numbers below `n`. -/
def AllBelow (files : PartFiles ρ) (key : BufKey) (n : ℕ) : Prop :=
  ∀ name ∈ files.keys, name.key = key → name.seq < n

/-- The number that a part has, or remembers, is free, and so are all beyond it. -/
def PartWrite.Free (files : PartFiles ρ) (p : PartWrite ρ) : Prop :=
  match p.stage with
  | .started => p.seq ≠ 0 → AllBelow files p.key p.seq
  | .numbered seq => AllBelow files p.key seq
  | .done nextSeq => 0 < nextSeq ∧ AllBelow files p.key nextSeq
  | .failed => True

/-- The sequence numbers of a sink, but for the key of a filed part, are free. -/
def SeqsFree (files : PartFiles ρ) (s : BookSink ρ) (f : Option (Flush ρ)) : Prop :=
  ∀ key n, s.partSeq.get? key = some n →
    (∀ p ∈ f.bind Flush.part, p.filed = true → p.key ≠ key) → 0 < n ∧ AllBelow files key n

/-- A sink and its flush fit together: what is counted and not in the buffers is in the part of the
flush, and the numbers of parts that are remembered are free. -/
structure Fits (files : PartFiles ρ) (s : BookSink ρ) (f : Option (Flush ρ)) : Prop where
  excess : s.excess = pendingRows f
  seqs : SeqsFree files s f
  part : ∀ p ∈ f.bind Flush.part, p.Free files

namespace BookSink

variable {files : PartFiles ρ} {s s' : BookSink ρ}

lemma SameBooks.seqsFree (h : SameBooks s s') (hs : SeqsFree files s none) :
    SeqsFree files s' none :=
  fun key n hk => hs key n (h.partSeq key n hk)

/-- The loop takes up its next part, or ends with all rows in the buffers. -/
lemma drain_fits (keys : List BufKey) (hexcess : s.excess = 0) (hs : SeqsFree files s none) :
    Fits files (s.drain keys).1 (s.drain keys).2 ∧
      (s.drain keys).1.held + unfiledRows (s.drain keys).2 = s.held := by
  induction keys generalizing s with
  | nil =>
    have hnonneg := s.inBuffers_nonneg
    refine ⟨⟨?_, hs, by simp [drain]⟩, ?_⟩
    · simp only [excess, drain, inBuffers, pendingRows, Option.bind_none, Option.elim_none]
        at hexcess hnonneg ⊢
      omega
    · simp [drain, held, inBuffers, unfiledRows]
  | cons key rest ih =>
    cases hrows : s.buf.getD key [] with
    | nil =>
      have hsame := forget_same hrows
      obtain ⟨hfits, hheld⟩ := ih (hsame.excess.trans hexcess) (hsame.seqsFree hs)
      rw [drain, hrows]
      exact ⟨hfits, hheld.trans hsame.held⟩
    | cons row rows =>
      have htotal := s.inBuffers_set key []
      rw [hrows, List.length_nil] at htotal
      rw [drain, hrows]
      refine ⟨⟨?_, fun k n hk _ => hs k n hk (by simp), ?_⟩, ?_⟩
      · simp only [excess, inBuffers, pendingRows_writing] at hexcess htotal ⊢
        omega
      · rintro p ⟨⟩ hseq
        refine (hs key _ ?_ (by simp)).2
        cases hget : s.partSeq.get? key with
        | none => exact absurd (by rw [Dict.getD, hget]; rfl) hseq
        | some n => rw [Dict.getD, hget]; rfl
      · rw [unfiledRows_writing, if_neg (by simp [PartWrite.filed])]
        simp only [held, inBuffers] at htotal ⊢
        omega

/-- Settling a filed part takes its rows from the count and its number into the map. -/
lemma settle_free {part : PartWrite ρ} {rest : List BufKey} {nextSeq : ℕ}
    (h : Fits files s (some (.writing part rest))) (hdone : part.stage = .done nextSeq) :
    (s.settle part nextSeq).excess = 0 ∧ SeqsFree files (s.settle part nextSeq) none := by
  have hexcess := h.excess
  have hfree := h.part part rfl
  rw [PartWrite.Free, hdone] at hfree
  refine ⟨?_, fun key n hk _ => ?_⟩
  · simp only [excess, pendingRows_writing, settle, inBuffers] at hexcess ⊢
    omega
  · rw [settle, Dict.get?_set] at hk
    split at hk
    · rename_i hkey
      cases hk
      exact hkey ▸ hfree
    · rename_i hkey
      refine h.seqs key n hk ?_
      rintro p ⟨⟩ _
      exact hkey

/-- The rows of a failed part are back in front of the list of their key. -/
lemma putBack {part : PartWrite ρ} {rest : List BufKey} {later : List (Row ρ)}
    (h : Fits files s (some (.writing part rest))) (hfailed : part.stage = .failed)
    (hlater : s.buf.get? part.key = some later) :
    let s' := { s with buf := s.buf.set part.key (part.rows ++ later) }
    s'.excess = 0 ∧ SeqsFree files s' none ∧ s'.held = s.held + part.rows.length := by
  have hexcess := h.excess
  have htotal := s.inBuffers_set part.key (part.rows ++ later)
  rw [Dict.getD, hlater, Option.getD_some, List.length_append] at htotal
  refine ⟨?_, fun key n hk _ => h.seqs key n hk ?_, ?_⟩
  · simp only [excess, pendingRows_writing, inBuffers] at hexcess htotal ⊢
    omega
  · rintro p ⟨⟩ hfiled
    simp [PartWrite.filed, hfailed] at hfiled
  · simp only [held, inBuffers] at htotal ⊢
    omega

/-- The flush goes on after a part, which is settled or put back. -/
lemma afterPart_fits {part : PartWrite ρ} {rest : List BufKey}
    (h : Fits files s (some (.writing part rest)))
    (hkept : part.stage = .failed → part.key ∈ s.buf.keys) (now : ℤ) :
    Fits files (s.afterPart part rest now).1 (s.afterPart part rest now).2 ∧
      (s.afterPart part rest now).1.held + unfiledRows (s.afterPart part rest now).2 =
        s.held + unfiledRows (some (.writing part rest)) := by
  cases hstage : part.stage with
  | started | numbered seq =>
    rw [afterPart, hstage]
    exact ⟨h, rfl⟩
  | done nextSeq =>
    obtain ⟨hexcess, hseqs⟩ := settle_free h hstage
    have hclose := (s.settle part nextSeq).closeWindow_same part.key now
    obtain ⟨hfits, hheld⟩ :=
      drain_fits rest (hclose.excess.trans hexcess) (hclose.seqsFree hseqs)
    rw [afterPart, hstage]
    refine ⟨hfits, hheld.trans (hclose.held.trans ?_)⟩
    simp [unfiledRows_writing, PartWrite.filed, hstage, settle, held, inBuffers]
  | failed =>
    obtain ⟨later, hlater⟩ := Dict.mem_keys.1 (hkept hstage)
    obtain ⟨hexcess, hseqs, hback⟩ := putBack h hstage hlater
    obtain ⟨hfits, hheld⟩ := drain_fits rest hexcess hseqs
    rw [afterPart, hstage]
    simp only [hlater]
    refine ⟨hfits, hheld.trans (hback.trans ?_)⟩
    simp [unfiledRows_writing, PartWrite.filed, hstage]

end BookSink

/-! ## Numbers -/

section Numbers

variable {files : PartFiles ρ} {key : BufKey} {n : ℕ}

lemma AllBelow.mono {m : ℕ} (h : AllBelow files key n) (hnm : n ≤ m) : AllBelow files key m :=
  fun name hname hkey => (h name hname hkey).trans_le hnm

/-- Taking a part away frees numbers only. -/
lemma AllBelow.erase (h : AllBelow files key n) (gone : PartName) :
    AllBelow (files.erase gone) key n := by
  intro name hname hkey
  obtain ⟨rows, hrows⟩ := Dict.mem_keys.1 hname
  rw [Dict.get?_erase] at hrows
  split at hrows
  · cases hrows
  · exact h name (Dict.mem_keys.2 ⟨rows, hrows⟩) hkey

/-- A new part moves the bound of its key, and of no other. -/
lemma AllBelow.set {name : PartName} (h : AllBelow files key n)
    (hname : name.key = key → name.seq < n) (rows : List (Row ρ)) :
    AllBelow (files.set name rows) key n := by
  intro other hother hkey
  obtain ⟨rows', hrows⟩ := Dict.mem_keys.1 hother
  rw [Dict.get?_set] at hrows
  split at hrows
  · rename_i heq
    exact heq ▸ hname (heq ▸ hkey)
  · exact h other (Dict.mem_keys.2 ⟨rows', hrows⟩) hkey

/-- The number that the listing gives lies over all names of the key. -/
lemma lt_nextPartSequence (names : List PartName) (key : BufKey) :
    ∀ name ∈ names, name.key = key → name.seq < nextPartSequence names key := by
  induction names using List.reverseRecOn with
  | nil => simp
  | append_singleton names last ih =>
    intro name hname hkey
    rw [nextPartSequence, List.foldl_append, List.foldl_cons, List.foldl_nil,
      ← nextPartSequence]
    rcases List.mem_append.1 hname with hname | hname
    · have hlt := ih name hname hkey
      split
      · exact lt_max_of_lt_left hlt
      · exact hlt
    · obtain rfl := List.mem_singleton.1 hname
      rw [if_pos hkey]
      exact lt_max_of_lt_right (Nat.lt_succ_self _)

end Numbers

/-! ## One step of a flush -/

namespace Fits

variable {files : PartFiles ρ} {s s' : BookSink ρ} {f : Option (Flush ρ)} {part : PartWrite ρ}
  {rest : List BufKey}

lemma of_sink (h : Fits files s f) (hexcess : s'.excess = s.excess)
    (hseqs : ∀ key n, s'.partSeq.get? key = some n → s.partSeq.get? key = some n) :
    Fits files s' f :=
  ⟨hexcess.trans h.excess, fun key n hk => h.seqs key n (hseqs key n hk), h.part⟩

/-- A flush that waits for no part. -/
lemma of_no_part {g : Option (Flush ρ)} (h : Fits files s f) (hf : f.bind Flush.part = none)
    (hg : g.bind Flush.part = none) : Fits files s g := by
  refine ⟨h.excess.trans ?_, fun key n hk _ => h.seqs key n hk ?_, ?_⟩
  · rw [pendingRows, pendingRows, hf, hg]
  · simp [hf]
  · simp [hg]

/-- A part that is not filed gets on. -/
lemma advance (h : Fits files s (some (.writing part rest))) {stage : Stage}
    (hopen : part.filed = false) (hfree : ({ part with stage := stage }).Free files) :
    Fits files s (some (.writing { part with stage := stage } rest)) := by
  refine ⟨h.excess, fun key n hk _ => h.seqs key n hk ?_, ?_⟩
  · rintro p ⟨⟩ hfiled
    exact absurd (hfiled.symm.trans hopen) Bool.noConfusion
  · rintro p ⟨⟩
    exact hfree

/-- The thread chooses the number of the part. -/
lemma number (h : Fits files s (some (.writing part rest))) (listed : Bool)
    (hlisted : listed = false → part.stage = .started → part.seq = 0 →
      ∀ name ∈ files.keys, name.key ≠ part.key) :
    Fits files s (some (.writing (part.number files.keys listed) rest)) := by
  rw [PartWrite.number]
  split
  · rename_i hstage
    have hfree := h.part part rfl
    rw [PartWrite.Free, hstage] at hfree
    refine h.advance (by simp [PartWrite.filed, hstage]) ?_
    by_cases hseq : part.seq = 0
    · simp only [PartWrite.Free, hseq, if_true]
      cases listed with
      | true => exact lt_nextPartSequence files.keys part.key
      | false => exact fun name hname hkey => absurd hkey (hlisted rfl hstage hseq name hname)
    · simp only [PartWrite.Free, hseq, if_false]
      exact hfree hseq
  · exact h

lemma erase (h : Fits files s f) (gone : PartName) : Fits (files.erase gone) s f := by
  refine ⟨h.excess, fun key n hk hfiled => ?_, fun p hp => ?_⟩
  · obtain ⟨hpos, hbelow⟩ := h.seqs key n hk hfiled
    exact ⟨hpos, hbelow.erase gone⟩
  · have hfree := h.part p hp
    rw [PartWrite.Free] at hfree ⊢
    cases hstage : p.stage with
    | started =>
      rw [hstage] at hfree
      exact fun hseq => (hfree hseq).erase gone
    | numbered seq =>
      rw [hstage] at hfree
      exact hfree.erase gone
    | done nextSeq =>
      rw [hstage] at hfree
      exact ⟨hfree.1, hfree.2.erase gone⟩
    | failed => trivial

/-- The part goes on disk: the sequence number of its key is now behind. -/
lemma file (h : Fits files s (some (.writing part rest))) {seq : ℕ}
    (hstage : part.stage = .numbered seq) (rows : List (Row ρ)) :
    Fits (files.set ⟨part.key, seq⟩ rows) s
      (some (.writing { part with stage := .done (seq + 1) } rest)) := by
  have hfree := h.part part rfl
  rw [PartWrite.Free, hstage] at hfree
  refine ⟨h.excess, fun key n hk hfiled => ?_, ?_⟩
  · have hne : part.key ≠ key := hfiled { part with stage := .done (seq + 1) } rfl rfl
    obtain ⟨hpos, hbelow⟩ := h.seqs key n hk (by rintro p ⟨⟩ _; exact hne)
    exact ⟨hpos, hbelow.set (fun hkey => absurd hkey hne) rows⟩
  · rintro p ⟨⟩
    exact ⟨seq.succ_pos, (hfree.mono seq.le_succ).set (fun _ => seq.lt_succ_self) rows⟩

end Fits

lemma unfiledRows_number (part : PartWrite ρ) (rest : List BufKey) (names : List PartName)
    (listed : Bool) :
    unfiledRows (some (.writing (part.number names listed) rest)) =
      unfiledRows (some (.writing part rest)) := by
  rw [unfiledRows_writing, unfiledRows_writing, PartWrite.number]
  split
  · rename_i hstage
    simp [PartWrite.filed, hstage]
  · rfl

/-- What the rest of a call can do: nothing any more, fail, or file the part. -/
lemma PartWrite.finish_cases (p : PartWrite ρ) (files : PartFiles ρ) (ok : Bool) :
    (p.finish files ok = (p, files) ∧ p.replaces files ok = []) ∨
    (p.filed = false ∧ p.finish files ok = ({ p with stage := .failed }, files) ∧
      p.replaces files ok = []) ∨
    ∃ seq, p.stage = .numbered seq ∧
      p.finish files ok =
        ({ p with stage := .done (seq + 1) }, files.set ⟨p.key, seq⟩ (sortRows p.rows)) ∧
      p.replaces files ok = if files.contains ⟨p.key, seq⟩ then [⟨p.key, seq⟩] else [] := by
  cases hstage : p.stage with
  | started => cases ok <;> simp [finish, replaces, filed, hstage]
  | numbered seq => cases ok <;> simp [finish, replaces, filed, hstage]
  | done nextSeq => cases ok <;> simp [finish, replaces, hstage]
  | failed => cases ok <;> simp [finish, replaces, hstage]

lemma get?_of_allBelow {files : PartFiles ρ} {key : BufKey} {n : ℕ}
    (h : AllBelow files key n) : files.get? ⟨key, n⟩ = none :=
  Dict.get?_eq_none.2 fun hmem => lt_irrefl n (h _ hmem rfl)

lemma rowsIn_set_of_none {files : PartFiles ρ} {name : PartName}
    (h : files.get? name = none) (rows : List (Row ρ)) :
    rowsIn (files.set name rows) = rowsIn files + rows.length := by
  rw [rowsIn, Dict.total_set, Dict.share_of_none h, sub_zero, rowsIn]

lemma rowsIn_erase (files : PartFiles ρ) (name : PartName) :
    rowsIn (files.erase name) = rowsIn files - (files.getD name []).length := by
  rw [rowsIn, Dict.total_erase, rowsIn, Dict.share, Dict.getD]
  cases files.get? name <;> rfl

/-! ## Runs -/

namespace World

/-- The accounts in every state, whatever the flush is doing: the rows that came in are on disk,
removed, held by the sink or in the part that is not filed yet, and no part was orphaned or
replaced. -/
structure Reconciled (base : ℤ) (w : World ρ) : Prop where
  fits : Fits w.files w.sink w.flush
  rows : base + w.accepted =
    rowsIn w.files + w.removed + w.sink.held + unfiledRows w.flush
  orphans : w.orphans = []
  replaced : w.replaced = []

lemma reconciled_init (files : PartFiles ρ) : (init files).Reconciled (rowsIn files) := by
  refine ⟨⟨rfl, fun key n hk => ?_, by simp [init]⟩, ?_, rfl, rfl⟩
  · cases hk
  · simp [init, BookSink.empty, BookSink.held, BookSink.inBuffers, unfiledRows]

namespace Reconciled

variable {base : ℤ} {w : World ρ}

/-- Without a flush and without orphans these are the accounts. -/
lemma balanced (h : w.Reconciled base) (hw : w.Quiet) : w.Balanced base := by
  have hexcess := h.fits.excess
  have hrows := h.rows
  rw [hw.1] at hexcess hrows
  refine ⟨?_, ?_, h.replaced⟩
  · simp only [BookSink.held, unfiledRows, Option.bind_none, Option.elim_none] at hrows
    omega
  · simp only [BookSink.excess, pendingRows, Option.bind_none, Option.elim_none] at hexcess
    omega

lemma write (h : w.Reconciled base) (rows : List (RawRow ρ)) (kind : String) :
    (w.step (.write rows kind)).Reconciled base := by
  have hrows := h.rows
  have hheld := w.sink.held_write rows kind
  refine ⟨h.fits.of_sink (w.sink.excess_write rows kind) fun _ _ => BookSink.partSeq_write, ?_,
    h.orphans, h.replaced⟩
  simp only [step]
  omega

lemma proceed (h : w.Reconciled base) {next : BookSink ρ × Option (Flush ρ)}
    (hfits : Fits w.files next.1 next.2)
    (hheld : next.1.held + unfiledRows next.2 = w.sink.held + unfiledRows w.flush) :
    (w.proceed next).Reconciled base := by
  have hrows := h.rows
  refine ⟨hfits, ?_, h.orphans, h.replaced⟩
  simp only [World.proceed]
  omega

/-- A flush that waits for no part may be left where it is, or go on waiting for none. -/
lemma wait (h : w.Reconciled base) {f : Option (Flush ρ)} (hw : w.inFlight = none)
    (hf : f.bind Flush.part = none) : ({ w with flush := f } : World ρ).Reconciled base := by
  have hrows := h.rows
  refine ⟨h.fits.of_no_part hw hf, ?_, h.orphans, h.replaced⟩
  rw [unfiledRows, show w.flush.bind Flush.part = none from hw] at hrows
  rw [hrows, unfiledRows, hf]

/-- Dropping the batch gives up all the rows that are in the buffers. -/
lemma dropBatch (h : w.Reconciled base) (hw : w.inFlight = none) :
    ({ w with sink := w.sink.dropBatch } : World ρ).Reconciled base := by
  have hexcess := h.fits.excess
  have hrows := h.rows
  have hnone : w.flush.bind Flush.part = none := hw
  rw [pendingRows, hnone, Option.elim_none] at hexcess
  refine ⟨⟨?_, fun key n hk => ?_, h.fits.part⟩, ?_, h.orphans, h.replaced⟩
  · rw [pendingRows, hnone]
    rfl
  · cases hk
  · simp only [BookSink.excess] at hexcess
    simp only [BookSink.held, BookSink.inBuffers, BookSink.dropBatch, Dict.total_empty]
      at hrows hexcess ⊢
    omega

lemma guard (h : w.Reconciled base) (blocked : Bool) :
    (w.step (.guard blocked)).Reconciled base := by
  rw [step]
  split
  · rename_i hflush
    have hnone : w.inFlight = none := by rw [inFlight, hflush]; rfl
    split
    · exact (h.dropBatch hnone).wait hnone rfl
    · have hidle := h.wait (f := none) hnone rfl
      obtain ⟨hfits, hheld⟩ := BookSink.drain_fits w.sink.buf.keys hidle.fits.excess hidle.fits.seqs
      refine h.proceed hfits (hheld.trans ?_)
      simp [hflush, unfiledRows, Flush.part]
  · exact h

lemma number (h : w.Reconciled base) (listed : Bool) (hs : w.Sound (.number listed)) :
    (w.step (.number listed)).Reconciled base := by
  rw [step]
  split
  · rename_i part rest hflush
    have hfits := h.fits
    have hrows := h.rows
    rw [hflush] at hfits hrows
    refine ⟨hfits.number listed ?_, hrows.trans ?_, h.orphans, h.replaced⟩
    · rintro rfl
      exact hs part (by rw [inFlight, hflush]; rfl)
    · rw [unfiledRows_number]
  · exact h

/-- A part that is filed leaves the amount that is in no file. -/
lemma file {part : PartWrite ρ} {rest : List BufKey} (h : w.Reconciled base)
    (hflush : w.flush = some (.writing part rest)) {seq : ℕ} (hstage : part.stage = .numbered seq) :
    ({ w with
      files := w.files.set ⟨part.key, seq⟩ (sortRows part.rows)
      flush := some (.writing { part with stage := .done (seq + 1) } rest) } :
        World ρ).Reconciled base := by
  have hfits := h.fits
  have hrows := h.rows
  rw [hflush] at hfits hrows
  have hfree := hfits.part part rfl
  rw [PartWrite.Free, hstage] at hfree
  have hlength : (sortRows part.rows).length = part.rows.length := (perm_sortByKey _ _).length_eq
  rw [unfiledRows_writing, if_neg (by simp [PartWrite.filed, hstage])] at hrows
  have hdone : unfiledRows (some (.writing { part with stage := .done (seq + 1) } rest)) = 0 := by
    simp [unfiledRows_writing, PartWrite.filed]
  refine ⟨hfits.file hstage _, ?_, h.orphans, h.replaced⟩
  rw [hdone, rowsIn_set_of_none (get?_of_allBelow hfree), hlength]
  simp only
  omega

/-- A part that fails stays in no file. -/
lemma fail {part : PartWrite ρ} {rest : List BufKey} (h : w.Reconciled base)
    (hflush : w.flush = some (.writing part rest)) (hopen : part.filed = false) :
    ({ w with flush := some (.writing { part with stage := .failed } rest) } :
      World ρ).Reconciled base := by
  have hfits := h.fits
  have hrows := h.rows
  rw [hflush] at hfits hrows
  refine ⟨hfits.advance hopen trivial, hrows.trans ?_, h.orphans, h.replaced⟩
  rw [unfiledRows_writing, unfiledRows_writing, hopen]
  rfl

lemma finish (h : w.Reconciled base) (ok : Bool) : (w.step (.finish ok)).Reconciled base := by
  rw [step]
  split
  · rename_i part rest hflush
    rw [finishPart]
    obtain ⟨hfinish, hreplaces⟩ | ⟨hopen, hfinish, hreplaces⟩ | ⟨seq, hstage, hfinish, hreplaces⟩ :=
      part.finish_cases w.files ok
    · rw [hfinish, hreplaces, List.append_nil, ← hflush]
      exact h
    · rw [hfinish, hreplaces, List.append_nil]
      exact h.fail hflush hopen
    · have hfree := h.fits.part part (by rw [hflush]; rfl)
      rw [PartWrite.Free, hstage] at hfree
      have hnothing : part.replaces w.files ok = [] := by
        rw [hreplaces, Dict.contains, get?_of_allBelow hfree]
        rfl
      rw [hfinish, hnothing, List.append_nil]
      exact h.file hflush hstage
  · exact h

lemma resume (h : w.Reconciled base) (now : ℤ) (hs : w.Sound (.resume now)) :
    (w.step (.resume now)).Reconciled base := by
  rw [step]
  split
  · rename_i part rest hflush
    have hfits := h.fits
    rw [hflush] at hfits
    obtain ⟨hnext, hheld⟩ := BookSink.afterPart_fits hfits
      (hs part (by rw [inFlight, hflush]; rfl)) now
    exact h.proceed hnext (by rw [hflush]; exact hheld)
  · exact h

lemma removePart (h : w.Reconciled base) (name : PartName) :
    (w.step (.removePart name)).Reconciled base := by
  have hrows := h.rows
  refine ⟨h.fits.erase name, ?_, h.orphans, h.replaced⟩
  simp only [step, rowsIn_erase]
  omega

/-- Every sound step keeps the accounts. -/
lemma step {e : Event ρ} (h : w.Reconciled base) (hs : w.Sound e) :
    (w.step e).Reconciled base := by
  cases e with
  | write rows kind => exact h.write rows kind
  | beginFlush =>
    rw [World.step]
    split
    · rename_i hnone
      have hflush : w.flush = none := Option.isNone_iff_eq_none.1 hnone
      exact h.wait (by rw [inFlight, hflush]; rfl) rfl
    · exact h
  | guard blocked => exact h.guard blocked
  | pruned =>
    rw [World.step]
    split
    · rename_i hflush
      exact h.wait (by rw [inFlight, hflush]; rfl) rfl
    · exact h
  | number listed => exact h.number listed hs
  | finish ok => exact h.finish ok
  | resume now => exact h.resume now hs
  | cancel =>
    have hnone : w.inFlight = none := hs
    rw [World.step, hnone, Option.toList_none, List.append_nil]
    exact h.wait hnone rfl
  | orphanNumber i listed =>
    rw [World.step, h.orphans, List.modify_nil, ← h.orphans]
    exact h
  | orphanFinish i ok =>
    rw [World.step, h.orphans]
    exact h
  | removePart name => exact h.removePart name

end Reconciled

/-- In a run of sound steps the accounts are in order whenever it is quiet. -/
theorem accountsForRows_of_sound (files : PartFiles ρ) (events : List (Event ρ))
    (h : EveryStep step Sound (init files) events) : AccountsForRows files events := by
  intro pre hpre hquiet
  have hrun := (h.of_prefix hpre).invariant (I := Reconciled (rowsIn files))
    (reconciled_init files) fun _ _ hw hs => hw.step hs
  exact hrun.balanced hquiet

/-- A row that comes while a part is written, which fails and is written again. -/
def retriedRun : List (Event Unit) :=
  [.write [⟨"token", some 0, ()⟩] "snapshot", .beginFlush, .guard false, .number true,
    .write [⟨"token", some 1000000, ()⟩] "snapshot", .finish false, .resume 2000000,
    .beginFlush, .guard false, .number true, .finish true, .resume 900000000]

theorem retried_run_accounts :
    EveryStep step Sound (init .empty) retriedRun ∧ AccountsForRows .empty retriedRun := by
  have hsound : EveryStep step Sound (init .empty) retriedRun := by
    refine ⟨trivial, trivial, trivial, trivial, trivial, trivial, ?_, trivial, trivial, trivial,
      trivial, ?_, trivial⟩
    · rintro p ⟨⟩ _
      decide
    · rintro p ⟨⟩ hfailed
      cases hfailed
  exact ⟨hsound, accountsForRows_of_sound .empty retriedRun hsound⟩

/-- The flush is cancelled during a part, whose thread completes: the row is on disk, and
counted as buffered for good. -/
theorem cancelled_part_stays_counted :
    ¬ AccountsForRows (.empty : PartFiles Unit)
      [.write [⟨"token", some 0, ()⟩] "snapshot", .beginFlush, .guard false, .number true,
        .cancel, .orphanFinish 0 true] := by
  intro h
  have hbuffered := (h _ (List.prefix_refl _) ⟨rfl, by decide⟩).buffered
  exact absurd hbuffered (by decide)

end World

end Evosport.ExternalData
