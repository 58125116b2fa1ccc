/-
Texts without the blanks around them.

`strip` takes away the characters at both ends of a text that the Unicode standard counts as white
space or as separators of lines.
-/
import Mathlib.Data.List.TakeWhile
import Mathlib.Data.String.Basic

namespace Lib

/-- The characters that are stripped off a text. -/
def isBlank (c : Char) : Bool :=
  let n := c.toNat
  (9 ≤ n && n ≤ 13) || (28 ≤ n && n ≤ 32) || n == 0x85 || n == 0xa0 || n == 0x1680 ||
    (0x2000 ≤ n && n ≤ 0x200a) || n == 0x2028 || n == 0x2029 || n == 0x202f || n == 0x205f ||
    n == 0x3000

/-- The text without the blanks around it. -/
def strip (s : String) : String :=
  String.ofList ((s.toList.dropWhile isBlank).reverse.dropWhile isBlank).reverse

private lemma dropWhile_of_forall_not {p : Char → Bool} {l : List Char}
    (h : ∀ c ∈ l, p c = false) : l.dropWhile p = l := by
  cases l with
  | nil => rfl
  | cons c l => rw [List.dropWhile_cons_of_neg (by simp [h c List.mem_cons_self])]

/-- The blanks around a text without blanks are taken away. -/
lemma strip_pad {before core after : List Char} (hbefore : ∀ c ∈ before, isBlank c = true)
    (hcore : ∀ c ∈ core, isBlank c = false) (hafter : ∀ c ∈ after, isBlank c = true) :
    strip (String.ofList (before ++ (core ++ after))) = String.ofList core := by
  have hend : ∀ l : List Char, (∀ c ∈ l, isBlank c = true) → l.dropWhile isBlank = [] :=
    fun l hl => List.dropWhile_eq_nil_iff.2 hl
  rw [strip, String.toList_ofList, List.dropWhile_append_of_pos hbefore]
  cases core with
  | nil => rw [List.nil_append, hend after hafter]; rfl
  | cons c core =>
    have hc : (c :: core ++ after).dropWhile isBlank = c :: core ++ after :=
      List.dropWhile_cons_of_neg (by simp [hcore c List.mem_cons_self])
    have hback : ∀ d ∈ after.reverse, isBlank d = true := fun d hd =>
      hafter d (List.mem_reverse.1 hd)
    have hself : (c :: core).reverse.dropWhile isBlank = (c :: core).reverse :=
      dropWhile_of_forall_not fun d hd => hcore d (List.mem_reverse.1 hd)
    rw [hc, List.reverse_append, List.dropWhile_append_of_pos hback, hself, List.reverse_reverse]

/-- A text without blanks stays as it is. -/
lemma strip_of_forall_not {s : String} (h : ∀ c ∈ s.toList, isBlank c = false) : strip s = s := by
  rw [strip, dropWhile_of_forall_not h,
    dropWhile_of_forall_not fun c hc => h c (List.mem_reverse.1 hc), List.reverse_reverse,
    String.ofList_toList]

end Lib
