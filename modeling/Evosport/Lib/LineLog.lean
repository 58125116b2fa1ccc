/-
Logs of one record a line.

A record is encoded as a text without line breaks; the log is the sequence of the encoded records,
each with a line break behind it.  The reader splits the log at the line breaks and decodes line by
line, passing over the lines that do not decode.  A crash leaves a prefix of what was being
written, so the last line may be torn.  When no proper prefix of an encoded record decodes, the
reader finds a prefix of the records in every prefix of the log (`read_prefix`), and what is
written behind a whole line is read independently of what stands before it (`Whole.read_append`).
-/
import Mathlib.Data.List.Infix

namespace Lib

/-- An encoding of records as lines: what is encoded is decoded, holds no line break before its end,
and no proper part of it is read as a record. -/
structure LineFormat (α : Type*) where
  /-- The text of a record. -/
  enc : α → List Char
  /-- The record on a line, if the line is not passed over. -/
  dec : List Char → Option α
  /-- The records that are written. -/
  valid : α → Prop
  dec_enc : ∀ a, valid a → dec (enc a) = some a
  newline_enc : ∀ a, valid a → '\n' ∉ enc a
  dec_prefix : ∀ a, valid a → ∀ cs, cs <+: enc a → cs ≠ enc a → dec cs = none
  dec_nil : dec [] = none

namespace LineFormat

variable {α : Type*} (L : LineFormat α)

/-- A record with its line break. -/
def line (a : α) : List Char := L.enc a ++ ['\n']

/-- The log of some records. -/
def write (as : List α) : List Char := as.flatMap L.line

/-- The records of a log. -/
def read (cs : List Char) : List α := (cs.splitOn '\n').filterMap L.dec

@[simp] lemma write_nil : L.write [] = [] := rfl

lemma write_cons (a : α) (as : List α) : L.write (a :: as) = L.line a ++ L.write as := rfl

lemma line_prefix_write (a : α) (as : List α) : L.line a <+: L.write (a :: as) :=
  List.prefix_append (L.line a) (L.write as)

lemma write_append (as bs : List α) : L.write (as ++ bs) = L.write as ++ L.write bs :=
  List.flatMap_append

lemma write_singleton (a : α) : L.write [a] = L.line a := by
  simp [write]

@[simp] lemma read_nil : L.read [] = [] := by
  simp [read, L.dec_nil]

lemma read_append_newline (cs rest : List Char) :
    L.read (cs ++ '\n' :: rest) = L.read cs ++ L.read rest := by
  rw [read, List.splitOn_append_cons_self, List.filterMap_append]
  rfl

lemma read_of_notMem {cs : List Char} (h : '\n' ∉ cs) : L.read cs = (L.dec cs).toList := by
  rw [read, List.splitOn_eq_singleton h]
  cases hdec : L.dec cs <;> simp [hdec]

/-- The log ends with a whole line, or is empty. -/
def Whole (cs : List Char) : Prop := ∀ c ∈ cs.getLast?, c = '\n'

instance (cs : List Char) : Decidable (Whole cs) := Option.decidableForallMem cs.getLast?

lemma whole_iff {cs : List Char} : Whole cs ↔ cs = [] ∨ ∃ pre, cs = pre ++ ['\n'] := by
  rcases List.eq_nil_or_concat cs with rfl | ⟨pre, c, rfl⟩
  · simp [Whole]
  · simp [Whole]

lemma whole_line (a : α) : Whole (L.line a) := whole_iff.2 (.inr ⟨L.enc a, rfl⟩)

lemma Whole.read_append {L : LineFormat α} {cs : List Char} (h : Whole cs) (rest : List Char) :
    L.read (cs ++ rest) = L.read cs ++ L.read rest := by
  rcases whole_iff.1 h with rfl | ⟨pre, rfl⟩
  · simp
  · rw [List.append_assoc, List.singleton_append, read_append_newline, read_append_newline,
      read_nil, List.append_nil]

variable {L}

lemma read_line {a : α} (h : L.valid a) : L.read (L.line a) = [a] := by
  rw [line, read_append_newline, read_nil, List.append_nil, read_of_notMem L (L.newline_enc a h),
    L.dec_enc a h]
  rfl

/-- A log is read back. -/
lemma read_write {as : List α} (h : ∀ a ∈ as, L.valid a) : L.read (L.write as) = as := by
  induction as with
  | nil => simp
  | cons a as ih =>
    have ha := h a List.mem_cons_self
    rw [write_cons, (whole_line L a).read_append, read_line ha,
      ih fun b hb => h b (List.mem_cons_of_mem a hb)]
    rfl

/-- Of a prefix of a log the reader finds a prefix of its records. -/
lemma read_prefix {as : List α} (h : ∀ a ∈ as, L.valid a) {cs : List Char}
    (hcs : cs <+: L.write as) : L.read cs <+: as := by
  induction as generalizing cs with
  | nil =>
    rw [write_nil, List.prefix_nil] at hcs
    simp [hcs]
  | cons a as ih =>
    have ha := h a List.mem_cons_self
    have has : ∀ b ∈ as, L.valid b := fun b hb => h b (List.mem_cons_of_mem a hb)
    rcases List.prefix_or_prefix_of_prefix hcs (L.line_prefix_write a as) with
      htorn | ⟨rest, rfl⟩
    · rw [line, List.prefix_concat_iff] at htorn
      rcases htorn with rfl | htorn
      · rw [← line, read_line ha]
        exact List.prefix_append [a] as
      · -- the line has no break: it decodes if it is complete
        have hbreak : '\n' ∉ cs := fun hmem => L.newline_enc a ha (htorn.subset hmem)
        rw [read_of_notMem L hbreak]
        by_cases heq : cs = L.enc a
        · rw [heq, L.dec_enc a ha]
          exact List.prefix_append [a] as
        · rw [L.dec_prefix a ha cs htorn heq]
          exact List.nil_prefix
    · -- the first line is whole
      rw [write_cons, List.prefix_append_right_inj] at hcs
      rw [(whole_line L a).read_append, read_line ha]
      exact List.prefix_append_right_inj [a] |>.2 (ih has hcs)

end LineFormat

end Lib
