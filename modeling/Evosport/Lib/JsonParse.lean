/-
Reading JSON.

A parser takes the characters that are left and returns what it read together with what it left.
`value` reads one value, with fuel for the nesting; `loads` reads a document.  Two things are
proved about them.  Reading undoes writing (`loads_text`), whichever characters the writer
escapes.  And reading does not look ahead (`value_extends`): what was read of a text is read
of every longer text, so that no proper prefix of the text of an object is a document of its own
(`loads_prefix`), which is what a torn write leaves.
-/
import Evosport.Lib.Json
import Mathlib.Data.List.TakeWhile
import Mathlib.Tactic.NormNum

namespace Lib

namespace Json

variable {F : Type} {α β : Type}

/-! ## The grammar -/

/-- The blanks between tokens. -/
def isSpace (c : Char) : Bool := c == ' ' || c == '\t' || c == '\n' || c == '\r'

/-- Leave out the white space in front. -/
def skipSpace (cs : List Char) : List Char := cs.dropWhile isSpace

/-- The value of a hexadecimal digit of either case. -/
def hexVal (c : Char) : Option ℕ :=
  if '0' ≤ c ∧ c ≤ '9' then some (c.toNat - 48)
  else if 'a' ≤ c ∧ c ≤ 'f' then some (c.toNat - 87)
  else if 'A' ≤ c ∧ c ≤ 'F' then some (c.toNat - 55)
  else none

/-- A 16-bit unit of four hexadecimal digits. -/
def hexUnit (a b c d : Char) : Option ℕ := do
  let a ← hexVal a
  let b ← hexVal b
  let c ← hexVal c
  let d ← hexVal d
  some (4096 * a + 256 * b + 16 * c + d)

/-- What a backslash and one more character stand for. -/
def shortUnescape (c : Char) : Option Char :=
  if c = '"' then some '"'
  else if c = '\\' then some '\\'
  else if c = '/' then some '/'
  else if c = 'n' then some '\n'
  else if c = 'r' then some '\r'
  else if c = 't' then some '\t'
  else if c = 'f' then some (Char.ofNat 12)
  else if c = 'b' then some (Char.ofNat 8)
  else none

/-- The character of the 16-bit unit `n`, which together with the next unit of `rest` is one
character when it is a high surrogate.  A surrogate on its own is no character. -/
def unitChar (n : ℕ) (rest : List Char) : Option (Char × List Char) :=
  if 55296 ≤ n ∧ n < 56320 then
    match rest with
    | '\\' :: 'u' :: a :: b :: c :: d :: rest =>
      (hexUnit a b c d).bind fun m =>
        if 56320 ≤ m ∧ m < 57344 then
          some (Char.ofNat (65536 + 1024 * (n - 55296) + (m - 56320)), rest)
        else none
    | _ => none
  else if 56320 ≤ n ∧ n < 57344 then none
  else some (Char.ofNat n, rest)

/-- The character that an escape stands for, behind its backslash. -/
def readEscape : List Char → Option (Char × List Char)
  | [] => none
  | e :: rest =>
    if e = 'u' then
      match rest with
      | a :: b :: c :: d :: rest => (hexUnit a b c d).bind fun n => unitChar n rest
      | _ => none
    else (shortUnescape e).map fun ch => (ch, rest)

/-- One character inside a string literal. -/
def readChar : List Char → Option (Char × List Char)
  | [] => none
  | c :: cs =>
    if c = '\\' then readEscape cs else if c.toNat < 32 then none else some (c, cs)

/-- The characters up to the closing quotation mark. -/
def stringBody : ℕ → List Char → Option (List Char × List Char)
  | 0, _ => none
  | _ + 1, [] => none
  | n + 1, c :: cs =>
    if c = '"' then some ([], cs)
    else
      (readChar (c :: cs)).bind fun x => (stringBody n x.2).map fun y => (x.1 :: y.1, y.2)

/-- The value of a number literal. -/
def numberOf [PyFloat F] (token : List Char) : Option (Json F) :=
  if !isNumber token then none
  else if hasFraction token then (PyFloat.ofText token).map .float
  else some (.int (readInt token))

/-- A number: the longest run of characters that numbers are made of. -/
def number [PyFloat F] (cs : List Char) : Option (Json F × List Char) :=
  (numberOf (cs.takeWhile isNumberChar)).map fun x => (x, cs.dropWhile isNumberChar)

/-- Elements read by `p`, separated by commas, up to `close`; at least one. -/
def more (p : List Char → Option (α × List Char)) (close : Char) :
    ℕ → List Char → Option (List α × List Char)
  | 0, _ => none
  | n + 1, cs =>
    (p cs).bind fun x =>
      match skipSpace x.2 with
      | [] => none
      | c :: rest =>
        if c = ',' then (more p close n (skipSpace rest)).map fun y => (x.1 :: y.1, y.2)
        else if c = close then some ([x.1], rest)
        else none

/-- Elements read by `p`, separated by commas, up to `close`. -/
def elements (p : List Char → Option (α × List Char)) (close : Char) (cs : List Char) :
    Option (List α × List Char) :=
  match skipSpace cs with
  | [] => none
  | c :: rest => if c = close then some ([], rest) else more p close (c :: rest).length (c :: rest)

/-- A member of an object, whose value is read by `p`: a string, a colon between blanks, and the
value; with what is left of the text. -/
def member (p : List Char → Option (α × List Char)) :
    List Char → Option ((String × α) × List Char)
  | [] => none
  | c :: cs =>
    if c = '"' then
      (stringBody cs.length cs).bind fun key =>
        match skipSpace key.2 with
        | [] => none
        | c :: rest =>
          if c = ':' then
            (p (skipSpace rest)).map fun x => ((String.ofList key.1, x.1), x.2)
          else none
    else none

/-- Read a literal. -/
def literal (word : String) (v : Json F) (cs : List Char) : Option (Json F × List Char) :=
  if word.toList <+: cs then some (v, cs.drop word.toList.length) else none

/-- Read one value, nested at most as deep as the fuel allows. -/
def value [PyFloat F] : ℕ → List Char → Option (Json F × List Char)
  | 0, _ => none
  | _ + 1, [] => none
  | n + 1, c :: cs =>
    if c = '"' then (stringBody cs.length cs).map fun x => (.str (String.ofList x.1), x.2)
    else if c = '[' then (elements (value n) ']' cs).map fun x => (.arr x.1, x.2)
    else if c = '{' then (elements (member (value n)) '}' cs).map fun x => (.obj x.1, x.2)
    else if c = 'n' then literal "null" .null (c :: cs)
    else if c = 't' then literal "true" (.bool true) (c :: cs)
    else if c = 'f' then literal "false" (.bool false) (c :: cs)
    else number (c :: cs)

/-- Read a document. -/
def loads [PyFloat F] (cs : List Char) : Option (Json F) :=
  (value cs.length (skipSpace cs)).bind fun x => if skipSpace x.2 = [] then some x.1 else none

/-! ## Numbers -/

/-- No decimal literal of a positive number starts with a zero. -/
private lemma toDigits_head {n : ℕ} (h : 0 < n) :
    ∃ c cs, Nat.toDigits 10 n = c :: cs ∧ c ≠ '0' := by
  have hdigit : ∀ d < 10, 0 < d → d.digitChar ≠ '0' := by decide
  induction n using Nat.strongRecOn with
  | ind n ih =>
    rcases lt_or_ge n 10 with hlt | hge
    · exact ⟨n.digitChar, [], Nat.toDigits_of_lt_base hlt, hdigit n hlt h⟩
    · obtain ⟨c, cs, hdigits, hne⟩ := ih (n / 10) (by omega) (by omega)
      refine ⟨c, cs ++ [(n % 10).digitChar], ?_, hne⟩
      rw [Nat.toDigits_of_base_le (by omega) hge, hdigits]
      rfl

private lemma isDigit_toDigits {n : ℕ} {c : Char} (h : c ∈ Nat.toDigits 10 n) :
    c.isDigit = true :=
  Nat.isDigit_of_mem_toDigits (by omega) (by omega) h

private lemma ne_of_isDigit {c d : Char} (h : c.isDigit = true) (hd : d.isDigit = false) :
    c ≠ d := by
  rintro rfl
  rw [h] at hd
  cases hd

private lemma afterInteger_toDigits (n : ℕ) : afterInteger (Nat.toDigits 10 n) = some [] := by
  rcases Nat.eq_zero_or_pos n with rfl | hpos
  · rfl
  obtain ⟨c, cs, hdigits, hne⟩ := toDigits_head hpos
  have hall : ∀ d ∈ c :: cs, d.isDigit = true := fun d hd => isDigit_toDigits (hdigits ▸ hd)
  have hc := hall c List.mem_cons_self
  have hminus : c ≠ '-' := ne_of_isDigit hc (by decide)
  have hdrop : cs.dropWhile Char.isDigit = [] :=
    List.dropWhile_eq_nil_iff.2 fun d hd => hall d (List.mem_cons_of_mem c hd)
  rw [hdigits]
  simp [afterInteger, hminus, hc, hdrop]

private lemma isNumber_of_afterInteger {cs : List Char} (h : afterInteger cs = some []) :
    isNumber cs = true := by
  simp [isNumber, h, afterFraction, afterExponent]

/-- The text of an integer. -/
private lemma intText_cases (n : ℤ) :
    (∃ k : ℕ, n = k ∧ intText n = Nat.toDigits 10 k) ∨
      ∃ k : ℕ, n = -k ∧ intText n = '-' :: Nat.toDigits 10 k := by
  cases n with
  | ofNat k => exact .inl ⟨k, rfl, rfl⟩
  | negSucc k => exact .inr ⟨k + 1, rfl, rfl⟩

private lemma isNumber_intText (n : ℤ) : isNumber (intText n) = true := by
  refine isNumber_of_afterInteger ?_
  rcases intText_cases n with ⟨k, -, htext⟩ | ⟨k, -, htext⟩
  · rw [htext, afterInteger_toDigits]
  · rw [htext]
    -- behind the sign stands the literal of a natural number, which has no sign
    have hpos := afterInteger_toDigits k
    cases hdigits : Nat.toDigits 10 k with
    | nil => exact absurd hdigits Nat.toDigits_ne_nil
    | cons c cs =>
      have hc : c.isDigit = true := isDigit_toDigits (hdigits ▸ List.mem_cons_self)
      have hminus : c ≠ '-' := ne_of_isDigit hc (by decide)
      rw [hdigits] at hpos
      simpa [afterInteger, hminus] using hpos

private lemma mem_intText {n : ℤ} {c : Char} (h : c ∈ intText n) : c.isDigit = true ∨ c = '-' := by
  rcases intText_cases n with ⟨k, -, htext⟩ | ⟨k, -, htext⟩
  · rw [htext] at h
    exact .inl (isDigit_toDigits h)
  · rw [htext] at h
    rcases List.mem_cons.1 h with rfl | h
    · exact .inr rfl
    · exact .inl (isDigit_toDigits h)

private lemma hasFraction_intText (n : ℤ) : hasFraction (intText n) = false := by
  refine List.any_eq_false.2 fun c hc => ?_
  rcases mem_intText hc with hdigit | rfl
  · simp [ne_of_isDigit hdigit (d := '.') (by decide), ne_of_isDigit hdigit (d := 'e') (by decide),
      ne_of_isDigit hdigit (d := 'E') (by decide)]
  · decide

private lemma isNumberChar_intText {n : ℤ} {c : Char} (h : c ∈ intText n) :
    isNumberChar c = true := by
  rcases mem_intText h with hdigit | rfl
  · simp [isNumberChar, hdigit]
  · decide

private lemma readInt_intText (n : ℤ) : readInt (intText n) = n := by
  rcases intText_cases n with ⟨k, rfl, htext⟩ | ⟨k, rfl, htext⟩
  · rw [htext]
    cases hdigits : Nat.toDigits 10 k with
    | nil => exact absurd hdigits Nat.toDigits_ne_nil
    | cons c cs =>
      have hc : c.isDigit = true := isDigit_toDigits (hdigits ▸ List.mem_cons_self)
      have hminus : c ≠ '-' := ne_of_isDigit hc (by decide)
      have hread : readInt (c :: cs) = Nat.ofDigitChars 10 (c :: cs) 0 := by
        simp [readInt, hminus]
      rw [hread, ← hdigits, Nat.ofDigitChars_ten_toDigits]
  · rw [htext]
    simp [readInt]

/-- What follows a number does not continue it. -/
def EndsNumber (cs : List Char) : Prop := ∀ c ∈ cs.head?, isNumberChar c = false

lemma endsNumber_nil : EndsNumber [] := by
  rintro c ⟨⟩

lemma endsNumber_cons {c : Char} {cs : List Char} (h : isNumberChar c = false) :
    EndsNumber (c :: cs) := by
  rintro d hd
  cases Option.mem_some_iff.1 hd
  exact h

private lemma takeWhile_token {token rest : List Char} (h : ∀ c ∈ token, isNumberChar c = true)
    (hrest : EndsNumber rest) : (token ++ rest).takeWhile isNumberChar = token := by
  rw [List.takeWhile_append_of_pos h]
  cases rest with
  | nil => simp
  | cons c rest => simp [hrest c rfl]

private lemma dropWhile_token {token rest : List Char} (h : ∀ c ∈ token, isNumberChar c = true)
    (hrest : EndsNumber rest) : (token ++ rest).dropWhile isNumberChar = rest := by
  rw [List.dropWhile_append_of_pos h]
  cases rest with
  | nil => rfl
  | cons c rest => simp [hrest c rfl]

lemma number_intText [PyFloat F] (n : ℤ) {rest : List Char} (hrest : EndsNumber rest) :
    number (F := F) (intText n ++ rest) = some (.int n, rest) := by
  have hchars : ∀ c ∈ intText n, isNumberChar c = true := fun c hc => isNumberChar_intText hc
  simp [number, numberOf, takeWhile_token hchars hrest, dropWhile_token hchars hrest,
    isNumber_intText, hasFraction_intText, readInt_intText]

lemma number_repr [PyFloat F] (x : F) {rest : List Char} (hrest : EndsNumber rest) :
    number (F := F) (PyFloat.repr x ++ rest) = some (.float x, rest) := by
  have hchars := PyFloat.isNumberChar_repr x
  simp [number, numberOf, takeWhile_token hchars hrest, dropWhile_token hchars hrest,
    PyFloat.isNumber_repr, PyFloat.hasFraction_repr, PyFloat.ofText_repr]

/-! ## Strings -/

/-- The characters of a string literal can be told apart: what `esc` writes for a character reads
back as that character and does not look like the end of the literal. -/
structure Escapes (esc : Char → List Char) : Prop where
  read : ∀ c rest, readChar (esc c ++ rest) = some (c, rest)
  start : ∀ c, ∃ e es, esc c = e :: es ∧ e ≠ '"'

private lemma hexVal_hexDigit : ∀ d < 16, hexVal (hexDigit d) = some d := by decide

private lemma hexUnit_hexDigits {n : ℕ} (h : n < 65536) :
    hexUnit (hexDigit (n / 4096 % 16)) (hexDigit (n / 256 % 16)) (hexDigit (n / 16 % 16))
      (hexDigit (n % 16)) = some n := by
  simp only [hexUnit, hexVal_hexDigit _ (Nat.mod_lt _ (by omega : 0 < 16)), Option.bind_eq_bind,
    Option.bind_some, Option.some.injEq]
  omega

private lemma readChar_escapeUnit {n : ℕ} (h : n < 65536) (rest : List Char) :
    readChar (escapeUnit n ++ rest) = unitChar n rest := by
  simp [escapeUnit, readChar, readEscape, hexUnit_hexDigits h]

private lemma shortEscape_cases {c e : Char} (h : shortEscape c = some e) :
    e ≠ 'u' ∧ shortUnescape e = some c := by
  unfold shortEscape at h
  repeat' split at h
  all_goals first
    | (subst_vars; cases h; exact ⟨by decide, by decide⟩)
    | cases h

/-- A character without a short escape is neither a quotation mark nor a backslash. -/
private lemma shortEscape_none {c : Char} (h : shortEscape c = none) : c ≠ '"' ∧ c ≠ '\\' := by
  constructor
  all_goals
    rintro rfl
    simp [shortEscape] at h

/-- A character of the basic plane is no surrogate. -/
private lemma unitChar_toNat {c : Char} (h : c.toNat < 65536) (rest : List Char) :
    unitChar c.toNat rest = some (c, rest) := by
  have hvalid : c.toNat < 55296 ∨ 57343 < c.toNat ∧ c.toNat < 1114112 := c.valid
  have hhigh : ¬ (55296 ≤ c.toNat ∧ c.toNat < 56320) := by omega
  have hlow : ¬ (56320 ≤ c.toNat ∧ c.toNat < 57344) := by omega
  simp [unitChar, hhigh, hlow]

private lemma readChar_short {c e : Char} (h : shortEscape c = some e) (rest : List Char) :
    readChar (['\\', e] ++ rest) = some (c, rest) := by
  obtain ⟨hne, hunescape⟩ := shortEscape_cases h
  simp [readChar, readEscape, hne, hunescape]

private lemma readChar_plain {c : Char} (h : shortEscape c = none) (hc : 32 ≤ c.toNat)
    (rest : List Char) : readChar ([c] ++ rest) = some (c, rest) := by
  obtain ⟨-, hne⟩ := shortEscape_none h
  simp [readChar, hne, hc]

lemma escapes_escape : Escapes escape := by
  constructor
  · intro c rest
    unfold escape
    split
    · next e he => exact readChar_short he rest
    · next hnone =>
      split
      · next hc => rw [readChar_escapeUnit (by omega), unitChar_toNat (by omega)]
      · next hc => exact readChar_plain hnone (by omega) rest
  · intro c
    unfold escape
    split
    · exact ⟨'\\', _, rfl, by decide⟩
    · next hnone =>
      split
      · exact ⟨'\\', _, rfl, by decide⟩
      · exact ⟨c, [], rfl, (shortEscape_none hnone).1⟩

/-- A high and a low surrogate are one character. -/
private lemma readChar_pair {high low : ℕ} (hhigh : high < 1024) (hlow : low < 1024)
    (rest : List Char) :
    readChar (escapeUnit (55296 + high) ++ escapeUnit (56320 + low) ++ rest) =
      some (Char.ofNat (65536 + 1024 * high + low), rest) := by
  have hunit := hexUnit_hexDigits (n := 56320 + low) (by omega)
  have hfirst : 55296 ≤ 55296 + high ∧ 55296 + high < 56320 := by omega
  have hsecond : 56320 ≤ 56320 + low ∧ 56320 + low < 57344 := by omega
  rw [List.append_assoc, readChar_escapeUnit (by omega)]
  simp only [unitChar, escapeUnit, List.cons_append, List.nil_append, hunit, if_pos hfirst,
    if_pos hsecond, Option.bind_some, Nat.add_sub_cancel_left]

lemma escapes_escapeAscii : Escapes escapeAscii := by
  constructor
  · intro c rest
    unfold escapeAscii
    split
    · next e he => exact readChar_short he rest
    · next hnone =>
      split
      · next hc => exact readChar_plain hnone hc.1 rest
      split
      · next hc => rw [readChar_escapeUnit hc, unitChar_toNat hc]
      · next hc =>
        -- beyond the basic plane the units are a high and a low surrogate
        have hvalid : c.toNat < 55296 ∨ 57343 < c.toNat ∧ c.toNat < 1114112 := c.valid
        have hsum : 65536 + 1024 * ((c.toNat - 65536) / 1024) + (c.toNat - 65536) % 1024 =
            c.toNat := by omega
        rw [readChar_pair (by omega) (Nat.mod_lt _ (by omega)), hsum, Char.ofNat_toNat]
  · intro c
    unfold escapeAscii
    split
    · exact ⟨'\\', _, rfl, by decide⟩
    · next hnone =>
      split
      · exact ⟨c, [], rfl, (shortEscape_none hnone).1⟩
      split
      · exact ⟨'\\', _, rfl, by decide⟩
      · exact ⟨'\\', _, rfl, by decide⟩

private lemma length_le_flatMap {esc : Char → List Char} (hesc : Escapes esc) (l : List Char) :
    l.length ≤ (l.flatMap esc).length := by
  induction l with
  | nil => exact Nat.le_refl 0
  | cons c l ih =>
    obtain ⟨e, es, hc, -⟩ := hesc.start c
    simp only [List.flatMap_cons, List.length_append, List.length_cons, hc]
    omega

private lemma stringBody_flatMap {esc : Char → List Char} (hesc : Escapes esc) {n : ℕ}
    {l rest : List Char} (h : l.length < n) :
    stringBody n (l.flatMap esc ++ '"' :: rest) = some (l, rest) := by
  induction l generalizing n with
  | nil =>
    cases n with
    | zero => exact absurd h (Nat.not_lt_zero _)
    | succ n => simp [stringBody]
  | cons c l ih =>
    cases n with
    | zero => exact absurd h (Nat.not_lt_zero _)
    | succ n =>
      obtain ⟨e, es, hc, hne⟩ := hesc.start c
      have hread := hesc.read c (l.flatMap esc ++ '"' :: rest)
      have hrest := ih (n := n) (by simpa using h)
      rw [hc, List.cons_append] at hread
      rw [List.flatMap_cons, hc, List.append_assoc, List.cons_append, stringBody, if_neg hne, hread]
      simp [hrest]

/-- A string literal is read back. -/
lemma stringBody_quoted {esc : Char → List Char} (hesc : Escapes esc) (s : String)
    (rest : List Char) :
    stringBody (s.toList.flatMap esc ++ '"' :: rest).length (s.toList.flatMap esc ++ '"' :: rest) =
      some (s.toList, rest) := by
  have hlength := length_le_flatMap hesc s.toList
  exact stringBody_flatMap hesc (by simp only [List.length_append, List.length_cons]; omega)

/-! ## Reading what was written -/

lemma skipSpace_cons {c : Char} (h : isSpace c = false) (cs : List Char) :
    skipSpace (c :: cs) = c :: cs := by
  simp [skipSpace, h]

/-- A text begins with a character that ends neither an array nor an object and is no blank. -/
def Starts (cs : List Char) : Prop :=
  ∃ c rest, cs = c :: rest ∧ isSpace c = false ∧ c ≠ ']' ∧ c ≠ '}'

lemma Starts.append {cs : List Char} (h : Starts cs) (rest : List Char) : Starts (cs ++ rest) := by
  obtain ⟨c, cs, rfl, hc⟩ := h
  exact ⟨c, cs ++ rest, rfl, hc⟩

lemma Starts.skipSpace_eq {cs : List Char} (h : Starts cs) : skipSpace cs = cs := by
  obtain ⟨c, cs, rfl, hspace, -⟩ := h
  exact skipSpace_cons hspace cs

private lemma starts_of_isNumber {cs : List Char} (h : isNumber cs = true)
    (hchars : ∀ c ∈ cs, isNumberChar c = true) : Starts cs := by
  cases cs with
  | nil => cases h
  | cons c rest =>
    have hc := hchars c List.mem_cons_self
    refine ⟨c, rest, rfl, ?_, ?_, ?_⟩
    · refine Bool.eq_false_iff.2 fun hspace => ?_
      simp only [isSpace, Bool.or_eq_true, beq_iff_eq] at hspace
      rcases hspace with ((rfl | rfl) | rfl) | rfl <;> cases hc
    · rintro rfl
      cases hc
    · rintro rfl
      cases hc

lemma starts_text [PyFloat F] (esc : Char → List Char) (v : Json F) : Starts (text esc v) := by
  cases v with
  | null => exact ⟨'n', _, rfl, by decide⟩
  | bool b => cases b <;> exact ⟨_, _, rfl, by decide⟩
  | int n => exact starts_of_isNumber (isNumber_intText n) fun c hc => isNumberChar_intText hc
  | float x => exact starts_of_isNumber (PyFloat.isNumber_repr x) (PyFloat.isNumberChar_repr x)
  | str s => exact ⟨'"', _, rfl, by decide⟩
  | arr items => exact ⟨'[', _, rfl, by decide⟩
  | obj members => exact ⟨'{', _, rfl, by decide⟩

private lemma textItems_eq_map [PyFloat F] (esc : Char → List Char) (items : List (Json F)) :
    textItems esc items = items.map (text esc) := by
  induction items with
  | nil => rfl
  | cons v items ih => simp [textItems, ih]

/-- The text of one member. -/
def textMember [PyFloat F] (esc : Char → List Char) (e : String × Json F) : List Char :=
  quoted esc e.1 ++ ':' :: text esc e.2

private lemma textMembers_eq_map [PyFloat F] (esc : Char → List Char)
    (members : List (String × Json F)) :
    textMembers esc members = members.map (textMember esc) := by
  induction members with
  | nil => rfl
  | cons e members ih => simp [textMembers, textMember, ih]

private lemma length_le_commaSep {p : List Char} {ps : List (List Char)} (h : p ∈ ps) :
    p.length ≤ (commaSep ps).length := by
  induction ps with
  | nil => exact absurd h List.not_mem_nil
  | cons q ps ih =>
    cases ps with
    | nil => simp [commaSep, List.mem_singleton.1 h]
    | cons q' ps =>
      simp only [commaSep, List.length_append, List.length_cons] at ih ⊢
      rcases List.mem_cons.1 h with rfl | h
      · omega
      · have := ih h
        omega

private lemma commaSep_cons_cons (p q : List Char) (ps : List (List Char)) :
    commaSep (p :: q :: ps) = p ++ ',' :: commaSep (q :: ps) := rfl

lemma Starts.joined {p : List Char} (h : Starts p) (ps : List (List Char)) :
    Starts (commaSep (p :: ps)) := by
  cases ps with
  | nil => exact h
  | cons q ps => exact h.append _

private lemma length_lt_commaSep {p : List Char} {ps : List (List Char)}
    (h : ∀ q ∈ p :: ps, Starts q) : ps.length < (commaSep (p :: ps)).length := by
  induction ps generalizing p with
  | nil =>
    obtain ⟨c, cs, rfl, -⟩ := h p List.mem_cons_self
    simp [commaSep]
  | cons q ps ih =>
    have := ih fun w hw => h w (List.mem_cons_of_mem p hw)
    simp only [commaSep_cons_cons, List.length_append, List.length_cons] at this ⊢
    omega

section Elements

variable {p : List Char → Option (α × List Char)} {t : α → List Char} {close : Char}

/-- Elements written with commas between them are read back one by one. -/
private lemma more_commaSep {x : α} {xs : List α} (hstart : ∀ y ∈ x :: xs, Starts (t y))
    (hread : ∀ y ∈ x :: xs, ∀ rest, EndsNumber rest → p (t y ++ rest) = some (y, rest))
    (hspace : isSpace close = false) (hcomma : close ≠ ',') (hnumber : isNumberChar close = false)
    (rest : List Char) {n : ℕ} (hn : xs.length < n) :
    more p close n (commaSep ((x :: xs).map t) ++ close :: rest) = some (x :: xs, rest) := by
  induction xs generalizing x n with
  | nil =>
    cases n with
    | zero => exact absurd hn (Nat.not_lt_zero _)
    | succ n =>
      have hx := hread x List.mem_cons_self (close :: rest) (endsNumber_cons hnumber)
      simp [more, commaSep, hx, skipSpace_cons hspace, hcomma]
  | cons y ys ih =>
    cases n with
    | zero => exact absurd hn (Nat.not_lt_zero _)
    | succ n =>
      have hys := ih (fun z hz => hstart z (List.mem_cons_of_mem x hz))
        (fun z hz => hread z (List.mem_cons_of_mem x hz)) (n := n) (by simpa using hn)
      -- behind the comma stands the text of the next element, which begins with no blank
      have hskip := (((hstart y (by simp)).joined (ys.map t)).append
        (close :: rest)).skipSpace_eq
      have hx := hread x List.mem_cons_self
        (',' :: (commaSep (t y :: ys.map t) ++ close :: rest)) (endsNumber_cons (by decide))
      have hblank : isSpace ',' = false := by decide
      rw [List.map_cons] at hys
      simp only [List.map_cons, commaSep_cons_cons, List.append_assoc, List.cons_append, more, hx,
        Option.bind_some, skipSpace_cons hblank, if_pos, hskip, hys, Option.map_some]

/-- Elements written with commas between them and behind them the closing bracket are read back. -/
lemma elements_commaSep {xs : List α} (hstart : ∀ y ∈ xs, Starts (t y))
    (hread : ∀ y ∈ xs, ∀ rest, EndsNumber rest → p (t y ++ rest) = some (y, rest))
    (hclose : close = ']' ∨ close = '}') (rest : List Char) :
    elements p close (commaSep (xs.map t) ++ close :: rest) = some (xs, rest) := by
  have hspace : isSpace close = false := by rcases hclose with rfl | rfl <;> decide
  have hcomma : close ≠ ',' := by rcases hclose with rfl | rfl <;> decide
  have hnumber : isNumberChar close = false := by rcases hclose with rfl | rfl <;> decide
  cases xs with
  | nil => simp [elements, commaSep, skipSpace_cons hspace]
  | cons x xs =>
    have hlength : (xs.map t).length < (commaSep (t x :: xs.map t)).length :=
      length_lt_commaSep (by simpa using ⟨hstart x List.mem_cons_self, fun y hy =>
        hstart y (List.mem_cons_of_mem x hy)⟩)
    have hmore := more_commaSep hstart hread hspace hcomma hnumber rest
      (n := (commaSep ((x :: xs).map t) ++ close :: rest).length)
      (by simp only [List.length_map, List.map_cons, List.length_append] at hlength ⊢; omega)
    obtain ⟨c, cs, hcs, hcspace, hcarr, hcobj⟩ :=
      ((hstart x List.mem_cons_self).joined (xs.map t)).append (close :: rest)
    have hcclose : c ≠ close := by rcases hclose with rfl | rfl <;> assumption
    rw [List.map_cons, hcs] at hmore
    rw [List.map_cons, hcs]
    simpa [elements, skipSpace_cons hcspace, hcclose] using hmore

end Elements

private lemma literal_append (word : String) (v : Json F) (rest : List Char) :
    literal word v (word.toList ++ rest) = some (v, rest) := by
  simp [literal]

section Value

variable [PyFloat F] {esc : Char → List Char}

private lemma member_textMember (hesc : Escapes esc) {p : List Char → Option (Json F × List Char)}
    {e : String × Json F} {rest : List Char}
    (hread : p (text esc e.2 ++ rest) = some (e.2, rest)) :
    member p (textMember esc e ++ rest) = some (e, rest) := by
  have hkey := stringBody_quoted hesc e.1 (':' :: (text esc e.2 ++ rest))
  have hcolon : isSpace ':' = false := by decide
  have hskip := ((starts_text esc e.2).append rest).skipSpace_eq
  have htext : textMember esc e ++ rest =
      '"' :: (e.1.toList.flatMap esc ++ '"' :: ':' :: (text esc e.2 ++ rest)) := by
    simp [textMember, quoted]
  rw [htext, member, if_pos rfl, hkey, Option.bind_some, skipSpace_cons hcolon]
  simp [hskip, hread]

/-- A number does not begin like any other value. -/
private lemma value_of_number {n : ℕ} {c : Char} {cs : List Char} (h : isNumberChar c = true) :
    value (F := F) (n + 1) (c :: cs) = number (c :: cs) := by
  have hne : ∀ d : Char, isNumberChar d = false → c ≠ d := by
    rintro d hd rfl
    rw [h] at hd
    cases hd
  rw [value, if_neg (hne '"' (by decide)), if_neg (hne '[' (by decide)),
    if_neg (hne '{' (by decide)), if_neg (hne 'n' (by decide)), if_neg (hne 't' (by decide)),
    if_neg (hne 'f' (by decide))]

/-- Reading undoes writing. -/
theorem value_text (hesc : Escapes esc) (v : Json F) {n : ℕ} (hn : (text esc v).length ≤ n)
    {rest : List Char} (hrest : EndsNumber rest) :
    value n (text esc v ++ rest) = some (v, rest) := by
  -- the fuel is at least the length of the text, and so positive
  obtain ⟨c, cs, htext, -⟩ := starts_text esc v
  obtain ⟨n, rfl⟩ : ∃ m, n = m + 1 := ⟨n - 1, by rw [htext, List.length_cons] at hn; omega⟩
  induction v using induct generalizing n rest c cs with
  | null => exact literal_append "null" .null rest
  | bool b =>
    cases b with
    | false => exact literal_append "false" (.bool false) rest
    | true => exact literal_append "true" (.bool true) rest
  | int i =>
    have hnumber := number_intText (F := F) i hrest
    have hc : isNumberChar c = true :=
      isNumberChar_intText (n := i) (by rw [text] at htext; rw [htext]; exact List.mem_cons_self)
    rw [text] at htext ⊢
    rw [htext, List.cons_append] at hnumber ⊢
    rw [value_of_number hc, hnumber]
  | float x =>
    have hnumber := number_repr x hrest
    have hc : isNumberChar c = true :=
      PyFloat.isNumberChar_repr x c (by rw [text] at htext; rw [htext]; exact List.mem_cons_self)
    rw [text] at htext ⊢
    rw [htext, List.cons_append] at hnumber ⊢
    rw [value_of_number hc, hnumber]
  | str s =>
    have hbody := stringBody_quoted hesc s rest
    simp only [text, quoted, List.cons_append, List.append_assoc, List.nil_append, value, if_pos,
      hbody, Option.map_some, String.ofList_toList]
  | arr items ih =>
    have hfuel : ∀ v ∈ items, (text esc v).length ≤ n := by
      intro v hv
      have hlength := length_le_commaSep (List.mem_map_of_mem (f := text esc) hv)
      rw [text, textItems_eq_map, List.length_cons, List.length_append] at hn
      omega
    have hitems := elements_commaSep (p := value n) (t := text esc)
      (fun (v : Json F) _ => starts_text esc v)
      (fun (v : Json F) hv rest hrest => by
        obtain ⟨d, ds, htext', -⟩ := starts_text esc v
        have hle := hfuel v hv
        obtain ⟨m, rfl⟩ : ∃ m, n = m + 1 := ⟨n - 1, by rw [htext', List.length_cons] at hle; omega⟩
        exact ih v hv hrest d ds htext' m hle)
      (.inl rfl) rest
    simp only [text, textItems_eq_map, List.cons_append, List.append_assoc, List.nil_append, value]
    simp [hitems]
  | obj members ih =>
    have hfuel : ∀ e ∈ members, (text esc e.2).length ≤ n := by
      intro e he
      have hlength := length_le_commaSep (List.mem_map_of_mem (f := textMember esc) he)
      rw [text, textMembers_eq_map, List.length_cons, List.length_append] at hn
      simp only [textMember, List.length_append, List.length_cons] at hlength
      omega
    have hmembers := elements_commaSep (p := member (value n)) (t := textMember esc)
      (fun (e : String × Json F) _ => ⟨'"', _, rfl, by decide⟩)
      (fun (e : String × Json F) he rest hrest => by
        obtain ⟨d, ds, htext', -⟩ := starts_text esc e.2
        have hle := hfuel e he
        obtain ⟨m, rfl⟩ : ∃ m, n = m + 1 := ⟨n - 1, by rw [htext', List.length_cons] at hle; omega⟩
        exact member_textMember hesc (ih e he hrest d ds htext' m hle))
      (.inr rfl) rest
    simp only [text, textMembers_eq_map, List.cons_append, List.append_assoc, List.nil_append,
      value]
    simp [hmembers]

/-- A document is read back, also with blanks behind it. -/
theorem loads_text (hesc : Escapes esc) (v : Json F) {blanks : List Char}
    (hblanks : ∀ c ∈ blanks, isSpace c = true) : loads (text esc v ++ blanks) = some v := by
  have hends : EndsNumber blanks := by
    intro c hc
    have hspace := hblanks c (List.mem_of_mem_head? hc)
    simp only [isSpace, Bool.or_eq_true, beq_iff_eq] at hspace
    rcases hspace with ((rfl | rfl) | rfl) | rfl <;> decide
  have hskip : skipSpace blanks = [] := List.dropWhile_eq_nil_iff.2 hblanks
  rw [loads, ((starts_text esc v).append blanks).skipSpace_eq,
    value_text hesc v (by rw [List.length_append]; omega) hends]
  simp [hskip]

/-- The text determines the value. -/
theorem text_inj (hesc : Escapes esc) {v w : Json F} : text esc v = text esc w ↔ v = w := by
  refine ⟨fun h => ?_, fun h => h ▸ rfl⟩
  have hread (u : Json F) : loads (text esc u ++ []) = some u :=
    loads_text hesc u fun _ h => absurd h List.not_mem_nil
  have hv := hread v
  have hw := hread w
  rw [h, hw] at hv
  exact (Option.some.inj hv).symm

/-- Two values have the same canonical text only if they differ in the order of members alone. -/
theorem dumps_inj {v w : Json F} : dumps v = dumps w ↔ v.canon = w.canon :=
  text_inj escapes_escape

end Value

/-! ## ASCII texts -/

/-- A printable ASCII character. -/
def Printable (c : Char) : Prop := 32 ≤ c.toNat ∧ c.toNat < 127

instance (c : Char) : Decidable (Printable c) := inferInstanceAs (Decidable (_ ∧ _))

private lemma printable_of_isDigit {c : Char} (h : c.isDigit = true) : Printable c := by
  simp only [Char.isDigit, Bool.and_eq_true, decide_eq_true_eq, UInt32.le_iff_toNat_le] at h
  exact ⟨Nat.le_trans (by decide) h.1, Nat.lt_of_le_of_lt h.2 (by decide)⟩

private lemma printable_of_isNumberChar {c : Char} (h : isNumberChar c = true) : Printable c := by
  simp only [isNumberChar, Bool.or_eq_true, beq_iff_eq] at h
  rcases h with ((((hdigit | rfl) | rfl) | rfl) | rfl) | rfl
  · exact printable_of_isDigit hdigit
  all_goals decide

private lemma printable_escapeUnit {n : ℕ} {c : Char} (h : c ∈ escapeUnit n) : Printable c := by
  have hdigit : ∀ d < 16, Printable (hexDigit d) := by decide
  simp only [escapeUnit, List.mem_cons, List.not_mem_nil, or_false] at h
  rcases h with rfl | rfl | rfl | rfl | rfl | rfl
  · decide
  · decide
  all_goals exact hdigit _ (Nat.mod_lt _ (by omega))

private lemma printable_of_shortEscape {c e : Char} (h : shortEscape c = some e) : Printable e := by
  unfold shortEscape at h
  repeat' split at h
  all_goals first
    | (cases h; decide)
    | cases h

private lemma printable_escapeAscii {c d : Char} (h : d ∈ escapeAscii c) : Printable d := by
  unfold escapeAscii at h
  split at h
  · next e he =>
    simp only [List.mem_cons, List.not_mem_nil, or_false] at h
    rcases h with rfl | rfl
    · decide
    · exact printable_of_shortEscape he
  split at h
  · next hc =>
    cases List.mem_singleton.1 h
    exact hc
  split at h
  · exact printable_escapeUnit h
  · rcases List.mem_append.1 h with h | h <;> exact printable_escapeUnit h

private lemma printable_quoted {s : String} {c : Char} (h : c ∈ quoted escapeAscii s) :
    Printable c := by
  simp only [quoted, List.mem_cons, List.mem_append, List.mem_flatMap, List.not_mem_nil,
    or_false] at h
  rcases h with rfl | ⟨d, -, hc⟩ | rfl
  · decide
  · exact printable_escapeAscii hc
  · decide

private lemma mem_commaSep {ps : List (List Char)} {c : Char} (h : c ∈ commaSep ps) :
    c = ',' ∨ ∃ p ∈ ps, c ∈ p := by
  induction ps with
  | nil => cases h
  | cons p ps ih =>
    cases ps with
    | nil => exact .inr ⟨p, List.mem_cons_self, h⟩
    | cons q ps =>
      rw [commaSep_cons_cons, List.mem_append, List.mem_cons] at h
      rcases h with h | rfl | h
      · exact .inr ⟨p, List.mem_cons_self, h⟩
      · exact .inl rfl
      · obtain rfl | ⟨r, hr, hc⟩ := ih h
        · exact .inl rfl
        · exact .inr ⟨r, List.mem_cons_of_mem p hr, hc⟩

private lemma printable_of_all {cs : List Char} (h : cs.all (fun c => decide (Printable c)) = true) :
    ∀ c ∈ cs, Printable c := fun c hc => of_decide_eq_true (List.all_eq_true.1 h c hc)

/-- The ASCII text of a value is printable throughout; in particular it has no line breaks. -/
theorem printable_text [PyFloat F] (v : Json F) : ∀ c ∈ text escapeAscii v, Printable c := by
  induction v using induct with
  | null =>
    have hword : ∀ c ∈ "null".toList, Printable c := printable_of_all (by decide)
    exact hword
  | bool b =>
    cases b with
    | true =>
      have hword : ∀ c ∈ "true".toList, Printable c := printable_of_all (by decide)
      exact hword
    | false =>
      have hword : ∀ c ∈ "false".toList, Printable c := printable_of_all (by decide)
      exact hword
  | int n => exact fun c hc => printable_of_isNumberChar (isNumberChar_intText (n := n) hc)
  | float x => exact fun c hc => printable_of_isNumberChar (PyFloat.isNumberChar_repr x c hc)
  | str s => exact fun c hc => printable_quoted hc
  | arr items ih =>
    intro c hc
    simp only [text, textItems_eq_map, List.mem_cons, List.mem_append, List.not_mem_nil,
      or_false] at hc
    rcases hc with rfl | hc | rfl
    · decide
    · obtain rfl | ⟨p, hp, hc⟩ := mem_commaSep hc
      · decide
      obtain ⟨v, hv, rfl⟩ := List.mem_map.1 hp
      exact ih v hv c hc
    · decide
  | obj members ih =>
    intro c hc
    simp only [text, textMembers_eq_map, List.mem_cons, List.mem_append, List.not_mem_nil,
      or_false] at hc
    rcases hc with rfl | hc | rfl
    · decide
    · obtain rfl | ⟨p, hp, hc⟩ := mem_commaSep hc
      · decide
      obtain ⟨e, he, rfl⟩ := List.mem_map.1 hp
      simp only [textMember, List.mem_append, List.mem_cons] at hc
      rcases hc with hc | rfl | hc
      · exact printable_quoted hc
      · decide
      · exact ih e he c hc
    · decide

/-! ## Reading does not look ahead -/

/-- What `p` reads of a text without coming to its end, `p'` reads of every longer text. -/
def Extends (p p' : List Char → Option (α × List Char)) : Prop :=
  ∀ cs x r s, p cs = some (x, r) → r ≠ [] → p' (cs ++ s) = some (x, r ++ s)

/-- What `p` reads of a text, `p'` reads of every longer text. -/
def ExtendsAlways (p p' : List Char → Option (α × List Char)) : Prop :=
  ∀ cs x r s, p cs = some (x, r) → p' (cs ++ s) = some (x, r ++ s)

lemma ExtendsAlways.extends {p p' : List Char → Option (α × List Char)} (h : ExtendsAlways p p') :
    Extends p p' := fun cs x r s hp _ => h cs x r s hp

private lemma unitChar_extends (n : ℕ) : ExtendsAlways (unitChar n) (unitChar n) := by
  intro cs x r s h
  unfold unitChar at h ⊢
  split
  · next hhigh =>
    rw [if_pos hhigh] at h
    split at h
    · next a b c d rest =>
      simp only [List.cons_append]
      obtain ⟨m, hm, h⟩ := Option.bind_eq_some_iff.1 h
      split at h
      · next hlow => simp_all
      · cases h
    · cases h
  · next hhigh =>
    rw [if_neg hhigh] at h
    split
    · next hlow =>
      rw [if_pos hlow] at h
      cases h
    · next hlow =>
      rw [if_neg hlow] at h
      cases h
      rfl

private lemma readEscape_extends : ExtendsAlways readEscape readEscape := by
  intro cs x r s h
  cases cs with
  | nil => cases h
  | cons e rest =>
    unfold readEscape at h ⊢
    dsimp only [List.cons_append] at h ⊢
    by_cases he : e = 'u'
    · rw [if_pos he] at h ⊢
      split at h
      · next a b c d rest =>
        obtain ⟨n, hn, h⟩ := Option.bind_eq_some_iff.1 h
        simp only [List.cons_append, hn, Option.bind_some]
        exact unitChar_extends n rest x r s h
      · cases h
    · rw [if_neg he] at h ⊢
      obtain ⟨ch, hch, hx⟩ := Option.map_eq_some_iff.1 h
      cases hx
      rw [hch]
      rfl

private lemma readChar_extends : ExtendsAlways readChar readChar := by
  intro cs x r s h
  cases cs with
  | nil => cases h
  | cons c cs =>
    rw [readChar] at h
    rw [List.cons_append, readChar]
    by_cases hc : c = '\\'
    · rw [if_pos hc] at h ⊢
      exact readEscape_extends cs x r s h
    · rw [if_neg hc] at h ⊢
      by_cases hlow : c.toNat < 32
      · rw [if_pos hlow] at h
        cases h
      · rw [if_neg hlow] at h ⊢
        cases h
        rfl

private lemma stringBody_extends {n m : ℕ} (hnm : n ≤ m) :
    ExtendsAlways (stringBody n) (stringBody m) := by
  intro cs x r s h
  induction n generalizing m cs x r with
  | zero => cases h
  | succ n ih =>
    obtain ⟨m, rfl⟩ : ∃ k, m = k + 1 := ⟨m - 1, by omega⟩
    cases cs with
    | nil => cases h
    | cons c cs =>
      rw [stringBody] at h
      rw [List.cons_append, stringBody]
      split
      · next hc =>
        rw [if_pos hc] at h
        cases h
        rfl
      · next hc =>
        rw [if_neg hc] at h
        obtain ⟨⟨ch, rest⟩, hread, h⟩ := Option.bind_eq_some_iff.1 h
        obtain ⟨⟨body, left⟩, hbody, hx⟩ := Option.map_eq_some_iff.1 h
        cases hx
        have hread' := readChar_extends _ _ _ s hread
        rw [List.cons_append] at hread'
        rw [hread', Option.bind_some, ih (by omega) _ _ _ hbody]
        rfl

private lemma skipSpace_append {cs rest : List Char} {c : Char} (h : skipSpace cs = c :: rest)
    (s : List Char) : skipSpace (cs ++ s) = c :: (rest ++ s) := by
  induction cs with
  | nil => cases h
  | cons d cs ih =>
    unfold skipSpace at h ih ⊢
    rw [List.cons_append]
    by_cases hd : isSpace d = true
    · rw [List.dropWhile_cons_of_pos hd] at h ⊢
      exact ih h
    · rw [List.dropWhile_cons_of_neg hd] at h ⊢
      cases h
      rfl

private lemma number_extends [PyFloat F] : Extends (number (F := F)) number := by
  intro cs x r s h hr
  obtain ⟨y, hy, hx⟩ := Option.map_eq_some_iff.1 h
  cases hx
  -- the literal ends where the rest begins, before anything that is appended
  have hends : EndsNumber (cs.dropWhile isNumberChar ++ s) := by
    intro c hc
    rw [List.head?_append_of_ne_nil _ hr] at hc
    exact Bool.eq_false_iff.2 fun hnumber => by
      have := List.head?_dropWhile_not isNumberChar cs
      simp_all
  have hchars : ∀ c ∈ cs.takeWhile isNumberChar, isNumberChar c = true :=
    fun c hc => List.mem_takeWhile_imp hc
  have htake := takeWhile_token hchars hends
  have hdrop := dropWhile_token hchars hends
  rw [← List.append_assoc, List.takeWhile_append_dropWhile] at htake hdrop
  rw [number, htake, hdrop, hy]
  rfl

private lemma literal_extends (word : String) (v : Json F) :
    ExtendsAlways (literal word v) (literal word v) := by
  intro cs x r s h
  unfold literal at h ⊢
  split at h
  · next hword =>
    cases h
    rw [if_pos (hword.trans (List.prefix_append cs s)),
      List.drop_append_of_le_length hword.length_le]
  · cases h

section Elements

variable {p p' : List Char → Option (α × List Char)} {close : Char}

private lemma more_extends (hp : Extends p p') (hnil : p [] = none) {n m : ℕ} (hnm : n ≤ m) :
    ExtendsAlways (more p close n) (more p' close m) := by
  intro cs x r s h
  induction n generalizing m cs x r with
  | zero => cases h
  | succ n ih =>
    obtain ⟨m, rfl⟩ : ∃ k, m = k + 1 := ⟨m - 1, by omega⟩
    rw [more] at h
    obtain ⟨⟨y, left⟩, hy, h⟩ := Option.bind_eq_some_iff.1 h
    cases hskip : skipSpace left with
    | nil => simp [hskip] at h
    | cons c rest =>
      have hleft : left ≠ [] := by
        rintro rfl
        cases hskip
      simp only [hskip] at h
      simp only [more, hp _ _ _ s hy hleft, Option.bind_some, skipSpace_append hskip]
      by_cases hc : c = ','
      · rw [if_pos hc] at h ⊢
        obtain ⟨⟨ys, left'⟩, hys, hx⟩ := Option.map_eq_some_iff.1 h
        cases hx
        -- the rest behind the comma is not all blanks, since an element was read of it
        cases hrest : skipSpace rest with
        | nil =>
          rw [hrest] at hys
          cases n with
          | zero => cases hys
          | succ n => simp [more, hnil] at hys
        | cons d ds =>
          rw [hrest] at hys
          rw [skipSpace_append hrest, ← List.cons_append, ih (by omega) _ _ _ hys]
          rfl
      · rw [if_neg hc] at h ⊢
        by_cases hclose : c = close
        · rw [if_pos hclose] at h ⊢
          cases h
          rfl
        · rw [if_neg hclose] at h
          cases h

private lemma elements_extends (hp : Extends p p') (hnil : p [] = none) :
    ExtendsAlways (elements p close) (elements p' close) := by
  intro cs x r s h
  unfold elements at h ⊢
  cases hskip : skipSpace cs with
  | nil => simp [hskip] at h
  | cons c rest =>
    simp only [hskip] at h
    simp only [skipSpace_append hskip]
    by_cases hclose : c = close
    · rw [if_pos hclose] at h ⊢
      cases h
      rfl
    · rw [if_neg hclose] at h ⊢
      exact more_extends hp hnil (by simp) _ _ _ s h

private lemma member_extends (hp : Extends p p') (hnil : p [] = none) :
    Extends (member p) (member p') := by
  intro cs x r s h hr
  cases cs with
  | nil => cases h
  | cons c cs =>
    rw [member] at h
    rw [List.cons_append, member]
    by_cases hc : c = '"'
    · rw [if_pos hc] at h ⊢
      obtain ⟨⟨key, left⟩, hkey, h⟩ := Option.bind_eq_some_iff.1 h
      rw [stringBody_extends (by simp) _ _ _ s hkey, Option.bind_some]
      cases hskip : skipSpace left with
      | nil => simp [hskip] at h
      | cons d rest =>
        simp only [hskip] at h
        simp only [skipSpace_append hskip]
        by_cases hcolon : d = ':'
        · rw [if_pos hcolon] at h ⊢
          obtain ⟨⟨y, left'⟩, hy, hx⟩ := Option.map_eq_some_iff.1 h
          cases hx
          cases hrest : skipSpace rest with
          | nil =>
            rw [hrest, hnil] at hy
            cases hy
          | cons e es =>
            rw [hrest] at hy
            rw [skipSpace_append hrest, ← List.cons_append, hp _ _ _ s hy hr]
            rfl
        · rw [if_neg hcolon] at h
          cases h
    · rw [if_neg hc] at h
      cases h

end Elements

section Value

variable [PyFloat F]

private lemma value_nil (n : ℕ) : value (F := F) n [] = none := by cases n <;> rfl

/-- A value in brackets is read of every longer text; another value is, if its text went on. -/
theorem value_extends {n m : ℕ} (hnm : n ≤ m) {cs : List Char} {x : Json F} {r : List Char}
    (h : value n cs = some (x, r)) (hstop : r ≠ [] ∨ cs.head? = some '{') (s : List Char) :
    value m (cs ++ s) = some (x, r ++ s) := by
  induction n generalizing m cs x r s with
  | zero => cases h
  | succ n ih =>
    obtain ⟨m, rfl⟩ : ∃ k, m = k + 1 := ⟨m - 1, by omega⟩
    have hvalue : Extends (value (F := F) n) (value m) :=
      fun cs x r s h hr => ih (by omega) h (.inl hr) s
    cases cs with
    | nil => cases h
    | cons c cs =>
      rw [value] at h
      rw [List.cons_append, value]
      split_ifs at h ⊢ with hstr harr hobj hnull htrue hfalse
      · obtain ⟨⟨body, left⟩, hbody, hx⟩ := Option.map_eq_some_iff.1 h
        cases hx
        rw [stringBody_extends (by simp) _ _ _ s hbody]
        rfl
      · obtain ⟨⟨items, left⟩, hitems, hx⟩ := Option.map_eq_some_iff.1 h
        cases hx
        rw [elements_extends hvalue (value_nil n) _ _ _ s hitems]
        rfl
      · obtain ⟨⟨members, left⟩, hmembers, hx⟩ := Option.map_eq_some_iff.1 h
        cases hx
        rw [elements_extends (member_extends hvalue (value_nil n)) rfl _ _ _ s hmembers]
        rfl
      · exact literal_extends _ _ _ _ _ s h
      · exact literal_extends _ _ _ _ _ s h
      · exact literal_extends _ _ _ _ _ s h
      · have hr : r ≠ [] := hstop.resolve_right fun hhead => hobj (Option.some.inj hhead)
        exact number_extends _ _ _ s h hr

/-- No proper prefix of the text of an object is a document. -/
theorem loads_prefix {esc : Char → List Char} (hesc : Escapes esc)
    (members : List (String × Json F)) {cs : List Char}
    (h : cs <+: text esc (.obj members)) (hne : cs ≠ text esc (.obj members)) :
    loads (F := F) cs = none := by
  refine Option.eq_none_iff_forall_ne_some.2 fun x hx => hne ?_
  obtain ⟨s, hs⟩ := h
  obtain ⟨⟨y, r⟩, hvalue, hend⟩ := Option.bind_eq_some_iff.1 hx
  cases cs with
  | nil => cases hvalue
  | cons c cs =>
    have hc : c = '{' := by
      rw [text, List.cons_append] at hs
      exact (List.cons.inj hs).1
    subst hc
    rw [skipSpace_cons (by decide)] at hvalue
    -- the object would be read of the whole text with something left behind it
    have hlong := value_extends (m := (text esc (.obj members)).length)
      (by rw [← hs]; simp) hvalue (.inr rfl) s
    have hwhole := value_text hesc (.obj members) (Nat.le_refl _) endsNumber_nil
    rw [List.append_nil] at hwhole
    rw [hs, hwhole] at hlong
    have hleft : r ++ s = [] := (congrArg Prod.snd (Option.some.inj hlong)).symm
    rw [← hs, (List.append_eq_nil_iff.1 hleft).2, List.append_nil]

end Value

end Json

end Lib
