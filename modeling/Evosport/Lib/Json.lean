/-
JSON values and their compact text.

A value keeps the members of an object as the list of pairs in which they were written, the way
a parser meets them.  `canon` sorts the members of every object by name, `text` writes a value
without blanks, and `dumps`, the canonical text, is the text of the sorted value.  Floating-point
numbers stay abstract: all that is asked of them (`PyFloat`) is a printed form which is a number of
the JSON grammar with a fraction or an exponent, and which reads back as the same number.
-/
import Evosport.Lib.Dict
import Evosport.Lib.StableSort
import Mathlib.Data.String.Basic

namespace Lib

/-! ## Number literals -/

/-- What follows the integer part `-?(0|[1-9][0-9]*)` of a number. -/
def afterInteger (cs : List Char) : Option (List Char) :=
  match (match cs with | '-' :: cs => cs | cs => cs) with
  | '0' :: cs => some cs
  | c :: cs => if c.isDigit then some (cs.dropWhile Char.isDigit) else none
  | [] => none

/-- What follows `[0-9]+`. -/
def afterDigits : List Char → Option (List Char)
  | c :: cs => if c.isDigit then some (cs.dropWhile Char.isDigit) else none
  | [] => none

/-- What follows the fraction `(\.[0-9]+)?`. -/
def afterFraction : List Char → Option (List Char)
  | '.' :: cs => afterDigits cs
  | cs => some cs

/-- What follows the exponent `([eE][-+]?[0-9]+)?`. -/
def afterExponent : List Char → Option (List Char)
  | 'e' :: cs | 'E' :: cs =>
    afterDigits (match cs with | '-' :: cs => cs | '+' :: cs => cs | cs => cs)
  | cs => some cs

/-- The literal is a number of the JSON grammar. -/
def isNumber (cs : List Char) : Bool :=
  ((afterInteger cs).bind afterFraction).bind afterExponent == some []

/-- The literal has a fraction or an exponent. -/
def hasFraction (cs : List Char) : Bool := cs.any fun c => c == '.' || c == 'e' || c == 'E'

/-- The characters that number literals are made of. -/
def isNumberChar (c : Char) : Bool :=
  c.isDigit || c == '-' || c == '+' || c == '.' || c == 'e' || c == 'E'

/-- Finite floating-point numbers with their printed form. -/
class PyFloat (F : Type) where
  /-- The shortest literal that reads back as the number. -/
  repr : F → List Char
  /-- The number of a literal; none where it overflows. -/
  ofText : List Char → Option F
  /-- The integer that the number equals, if it equals one. -/
  toInt? : F → Option ℤ
  ofText_repr : ∀ x, ofText (repr x) = some x
  isNumber_repr : ∀ x, isNumber (repr x) = true
  hasFraction_repr : ∀ x, hasFraction (repr x) = true
  isNumberChar_repr : ∀ x, ∀ c ∈ repr x, isNumberChar c = true

/-- A format of a single number. -/
instance : PyFloat Unit where
  repr _ := "0.0".toList
  ofText _ := some ()
  toInt? _ := some 0
  ofText_repr _ := rfl
  isNumber_repr _ := by decide
  hasFraction_repr _ := by decide
  isNumberChar_repr _ := List.all_eq_true.1 (by decide)

/-- The decimal literal of an integer. -/
def intText : ℤ → List Char
  | .ofNat n => Nat.toDigits 10 n
  | .negSucc n => '-' :: Nat.toDigits 10 (n + 1)

/-- The integer of a decimal literal. -/
def readInt : List Char → ℤ
  | '-' :: cs => -Nat.ofDigitChars 10 cs 0
  | cs => Nat.ofDigitChars 10 cs 0

/-! ## Values -/

/-- A JSON value over the floats `F`; an object is a list of members, in which a name may come
twice. -/
inductive Json (F : Type) where
  | null
  | bool (b : Bool)
  | int (n : ℤ)
  | float (x : F)
  | str (s : String)
  | arr (items : List (Json F))
  | obj (members : List (String × Json F))
  deriving Inhabited

namespace Json

variable {F : Type}

/-- Induction over values: what holds of all items and of all members holds of the whole. -/
theorem induct {P : Json F → Prop} (null : P .null) (bool : ∀ b, P (.bool b))
    (int : ∀ n, P (.int n)) (float : ∀ x, P (.float x)) (str : ∀ s, P (.str s))
    (arr : ∀ items, (∀ v ∈ items, P v) → P (.arr items))
    (obj : ∀ members : List (String × Json F), (∀ e ∈ members, P e.2) → P (.obj members))
    (v : Json F) : P v :=
  @Json.rec F P (fun items => ∀ v ∈ items, P v) (fun members => ∀ e ∈ members, P e.2)
    (fun e => P e.2)
    null bool int float str arr obj
    (fun _ h => absurd h List.not_mem_nil)
    (fun _ _ hv hitems => List.forall_mem_cons.2 ⟨hv, hitems⟩)
    (fun _ h => absurd h List.not_mem_nil)
    (fun _ _ he hmembers => List.forall_mem_cons.2 ⟨he, hmembers⟩)
    (fun _ _ h => h) v

mutual

/-- Sort the members of every object by name. -/
def canon : Json F → Json F
  | .arr items => .arr (canonItems items)
  | .obj members => .obj (sortByKey Prod.fst (canonMembers members))
  | v => v

/-- The items of an array in canonical form. -/
def canonItems : List (Json F) → List (Json F)
  | [] => []
  | v :: items => v.canon :: canonItems items

/-- The members of an object in canonical form, under the same keys. -/
def canonMembers : List (String × Json F) → List (String × Json F)
  | [] => []
  | (k, v) :: members => (k, v.canon) :: canonMembers members

end

mutual

/-- Every object names each of its members once. -/
def distinctKeys : Json F → Bool
  | .arr items => distinctItems items
  | .obj members => (members.map Prod.fst).Nodup && distinctMembers members
  | _ => true

/-- All items list each of their keys once. -/
def distinctItems : List (Json F) → Bool
  | [] => true
  | v :: items => v.distinctKeys && distinctItems items

/-- All values of an object list each of their keys once. -/
def distinctMembers : List (String × Json F) → Bool
  | [] => true
  | (_, v) :: members => v.distinctKeys && distinctMembers members

end

/-! ## Text -/

/-- One of the sixteen lowercase hexadecimal digits. -/
def hexDigit (n : ℕ) : Char := "0123456789abcdef".toList.getD n '0'

/-- The escape of a 16-bit unit, as four hexadecimal digits. -/
def escapeUnit (n : ℕ) : List Char :=
  ['\\', 'u', hexDigit (n / 4096 % 16), hexDigit (n / 256 % 16), hexDigit (n / 16 % 16),
    hexDigit (n % 16)]

/-- The characters with an escape of their own: the quotation mark, the backslash and the common
control characters. -/
def shortEscape (c : Char) : Option Char :=
  if c = '"' then some '"'
  else if c = '\\' then some '\\'
  else if c = '\n' then some 'n'
  else if c = '\r' then some 'r'
  else if c = '\t' then some 't'
  else if c = Char.ofNat 12 then some 'f'
  else if c = Char.ofNat 8 then some 'b'
  else none

/-- A character inside a string literal of a Unicode text. -/
def escape (c : Char) : List Char :=
  match shortEscape c with
  | some e => ['\\', e]
  | none => if c.toNat < 32 then escapeUnit c.toNat else [c]

/-- A character inside a string literal of an ASCII text: what is not printable ASCII is written in
16-bit units, two of them beyond the basic plane. -/
def escapeAscii (c : Char) : List Char :=
  match shortEscape c with
  | some e => ['\\', e]
  | none =>
    if 32 ≤ c.toNat ∧ c.toNat < 127 then [c]
    else if c.toNat < 65536 then escapeUnit c.toNat
    else escapeUnit (55296 + (c.toNat - 65536) / 1024) ++
      escapeUnit (56320 + (c.toNat - 65536) % 1024)

/-- Join with commas. -/
def commaSep : List (List Char) → List Char
  | [] => []
  | [p] => p
  | p :: ps => p ++ ',' :: commaSep ps

section Text

variable (esc : Char → List Char)

/-- A string literal. -/
def quoted (s : String) : List Char := '"' :: (s.toList.flatMap esc ++ ['"'])

mutual

/-- The text of a value, without blanks, with the members of its objects as they stand. -/
def text [PyFloat F] : Json F → List Char
  | .null => "null".toList
  | .bool true => "true".toList
  | .bool false => "false".toList
  | .int n => intText n
  | .float x => PyFloat.repr x
  | .str s => quoted esc s
  | .arr items => '[' :: (commaSep (textItems items) ++ [']'])
  | .obj members => '{' :: (commaSep (textMembers members) ++ ['}'])

/-- The texts of the items of an array. -/
def textItems [PyFloat F] : List (Json F) → List (List Char)
  | [] => []
  | v :: items => text v :: textItems items

/-- The texts of the members of an object: the key quoted, a colon, and the value. -/
def textMembers [PyFloat F] : List (String × Json F) → List (List Char)
  | [] => []
  | (k, v) :: members => (quoted esc k ++ ':' :: text v) :: textMembers members

end

end Text

/-- The canonical text: members sorted by name, no blanks, Unicode. -/
def dumps [PyFloat F] (v : Json F) : List Char := v.canon.text escape

/-- The member named `k` of an object; of several of that name the last one, as in a dictionary that
is filled in reading order. -/
def get? (k : String) : Json F → Option (Json F)
  | .obj members => Dict.lookup k members.reverse
  | _ => none

/-- The names of the members of an object. -/
def names? : Json F → Option (List String)
  | .obj members => some (members.map Prod.fst)
  | _ => none

/-- The items, where the value is an array. -/
def items? : Json F → Option (List (Json F))
  | .arr items => some items
  | _ => none

/-- The text, where the value is a string. -/
def str? : Json F → Option String
  | .str s => some s
  | _ => none

/-- An integer that is not negative. -/
def nat? : Json F → Option ℕ
  | .int (.ofNat n) => some n
  | _ => none

/-! ## Sorted values -/

lemma canonItems_eq_map (items : List (Json F)) : canonItems items = items.map canon := by
  induction items with
  | nil => rfl
  | cons v items ih => simp [canonItems, ih]

lemma canonMembers_eq_map (members : List (String × Json F)) :
    canonMembers members = members.map fun e => (e.1, e.2.canon) := by
  induction members with
  | nil => rfl
  | cons e members ih => simp [canonMembers, ih]

@[simp] lemma canon_arr (items : List (Json F)) : canon (.arr items) = .arr (items.map canon) := by
  rw [canon, canonItems_eq_map]

@[simp] lemma canon_obj (members : List (String × Json F)) :
    canon (.obj members) = .obj (sortByKey Prod.fst (members.map fun e => (e.1, e.2.canon))) := by
  rw [canon, canonMembers_eq_map]

/-- Sorting twice is sorting once. -/
lemma canon_canon (v : Json F) : v.canon.canon = v.canon := by
  induction v using induct with
  | null => rfl
  | bool b => rfl
  | int n => rfl
  | float x => rfl
  | str s => rfl
  | arr items ih =>
    simp only [canon_arr, List.map_map]
    exact congrArg Json.arr (List.map_congr_left ih)
  | obj members ih =>
    simp only [canon_obj]
    have hself : ∀ e ∈ sortByKey Prod.fst (members.map fun e => (e.1, e.2.canon)),
        (e.1, e.2.canon) = id e := by
      intro e he
      obtain ⟨e₀, hmem, rfl⟩ := List.mem_map.1 (mem_sortByKey.1 he)
      exact Prod.ext rfl (ih e₀ hmem)
    rw [List.map_congr_left hself, List.map_id, sortByKey_sortByKey]

lemma distinctItems_iff {items : List (Json F)} :
    distinctItems items = true ↔ ∀ v ∈ items, v.distinctKeys = true := by
  induction items with
  | nil => simp [distinctItems]
  | cons v items ih => simp [distinctItems, ih]

lemma distinctMembers_iff {members : List (String × Json F)} :
    distinctMembers members = true ↔ ∀ e ∈ members, e.2.distinctKeys = true := by
  induction members with
  | nil => simp [distinctMembers]
  | cons e members ih => simp [distinctMembers, ih]

/-- Sorting keeps the names distinct. -/
lemma distinctKeys_canon {v : Json F} (h : v.distinctKeys = true) :
    v.canon.distinctKeys = true := by
  induction v using induct with
  | null => rfl
  | bool b => rfl
  | int n => rfl
  | float x => rfl
  | str s => rfl
  | arr items ih =>
    rw [distinctKeys, distinctItems_iff] at h
    rw [canon_arr, distinctKeys, distinctItems_iff]
    intro w hw
    obtain ⟨v, hv, rfl⟩ := List.mem_map.1 hw
    exact ih v hv (h v hv)
  | obj members ih =>
    rw [distinctKeys, Bool.and_eq_true, decide_eq_true_eq, distinctMembers_iff] at h
    rw [canon_obj, distinctKeys, Bool.and_eq_true, decide_eq_true_eq, distinctMembers_iff]
    have hperm := (perm_sortByKey Prod.fst
      (members.map fun e => (e.1, e.2.canon))).map Prod.fst
    refine ⟨hperm.nodup_iff.2 ?_, ?_⟩
    · rw [List.map_map]
      exact h.1
    · intro w hw
      obtain ⟨e, he, rfl⟩ := List.mem_map.1 (mem_sortByKey.1 hw)
      exact ih e he (h.2 e he)

/-- A member of a value that names each once is found again in the sorted value. -/
lemma get?_canon {v : Json F} (h : v.distinctKeys = true) (k : String) :
    v.canon.get? k = (v.get? k).map canon := by
  cases v with
  | obj members =>
    rw [distinctKeys, Bool.and_eq_true, decide_eq_true_eq] at h
    have hnodup : (members.reverse.map Prod.fst).Nodup := by
      rw [List.map_reverse]
      exact List.nodup_reverse.2 h.1
    have hsorted : ((sortByKey Prod.fst (members.map fun e => (e.1, e.2.canon))).reverse.map
        Prod.fst).Nodup := by
      rw [List.map_reverse, List.nodup_reverse]
      refine ((perm_sortByKey Prod.fst _).map Prod.fst).nodup_iff.2 ?_
      rw [List.map_map]
      exact h.1
    ext w
    simp only [canon_obj, get?, Option.map_eq_some_iff]
    rw [Dict.lookup_eq_some hsorted, List.mem_reverse, mem_sortByKey, List.mem_map]
    constructor
    · rintro ⟨e, he, heq⟩
      obtain ⟨rfl, rfl⟩ := Prod.mk.inj heq
      exact ⟨e.2, (Dict.lookup_eq_some hnodup).2 (List.mem_reverse.2 he), rfl⟩
    · rintro ⟨w, hw, rfl⟩
      exact ⟨(k, w), List.mem_reverse.1 ((Dict.lookup_eq_some hnodup).1 hw), rfl⟩
  | arr items => simp [get?]
  | _ => rfl

/-- The sorted value has the same names. -/
lemma names?_canon (v : Json F) :
    (v.names? = none ∧ v.canon.names? = none) ∨
      ∃ names names', v.names? = some names ∧ v.canon.names? = some names' ∧ names.Perm names' := by
  cases v with
  | obj members =>
    refine .inr ⟨_, _, rfl, by rw [canon_obj, names?], ?_⟩
    have hperm := (perm_sortByKey Prod.fst (members.map fun e => (e.1, e.2.canon))).map Prod.fst
    rw [List.map_map] at hperm
    exact hperm.symm
  | arr items => exact .inl ⟨rfl, by rw [canon_arr, names?]; simp⟩
  | _ => exact .inl ⟨rfl, rfl⟩

/-- Two objects with the same distinct names, in the same order, are sorted to the same value only
if their members are. -/
lemma canon_members_eq {members members' : List (String × Json F)}
    (hkeys : members.map Prod.fst = members'.map Prod.fst) (hnodup : (members.map Prod.fst).Nodup)
    (h : canon (.obj members) = canon (.obj members')) :
    members.map (fun e => (e.1, e.2.canon)) = members'.map fun e => (e.1, e.2.canon) := by
  simp only [canon_obj, obj.injEq] at h
  have hperm : (members.map fun e => (e.1, e.2.canon)).Perm
      (members'.map fun e => (e.1, e.2.canon)) := by
    refine (perm_sortByKey Prod.fst _).symm.trans ?_
    rw [h]
    exact perm_sortByKey Prod.fst _
  have hnames (l : List (String × Json F)) :
      (l.map fun e => (e.1, e.2.canon)).map Prod.fst = l.map Prod.fst := by
    rw [List.map_map]; rfl
  let d : Dict String (Json F) := ⟨_, (hnames members).symm ▸ hnodup⟩
  let d' : Dict String (Json F) := ⟨_, (hnames members').symm ▸ hkeys ▸ hnodup⟩
  have hsame : d = d' :=
    Dict.eq_of_perm ((hnames members).trans (hkeys.trans (hnames members').symm)) hperm
  exact congrArg Dict.entries hsame

/-- Two objects with the same distinct names, in the same order, are sorted to the same value
exactly if their members are. -/
lemma canon_obj_eq_iff {members members' : List (String × Json F)}
    (hkeys : members.map Prod.fst = members'.map Prod.fst) (hnodup : (members.map Prod.fst).Nodup) :
    canon (.obj members) = canon (.obj members') ↔
      members.map (fun e => (e.1, e.2.canon)) = members'.map fun e => (e.1, e.2.canon) :=
  ⟨canon_members_eq hkeys hnodup, fun h => by rw [canon_obj, canon_obj, h]⟩

end Json

end Lib
