/-
Text by lines as Rust's `str` reads it: the lines of a text, and a text
without the space around it. What counts as space is a parameter; trimming
twice is trimming once.
-/
import Mathlib.Data.List.DropRight
import Dyninfer.Lib.Text

namespace Text

/-- A carriage return that ends a line, the line's last character first. -/
def dropReturn : List Char → List Char
  | '\r' :: line => line
  | line => line

/-- `str::lines`, with the line that has begun, its last character first. What follows the last line feed is
a line if there is any. -/
def linesFrom : List Char → List Char → List String
  | line, [] => if line.isEmpty then [] else [String.ofList line.reverse]
  | line, '\n' :: rest => String.ofList (dropReturn line).reverse :: linesFrom [] rest
  | line, c :: rest => linesFrom (c :: line) rest

/-- `str::lines`. -/
def lines (s : String) : List String := linesFrom [] s.toList

section trim

variable (space : Char → Bool)

/-- `str::trim`. -/
def trim (s : String) : String := String.ofList ((s.toList.dropWhile space).rdropWhile space)

theorem trim_trim (s : String) : trim space (trim space s) = trim space s := by
  have hfirst : ((s.toList.dropWhile space).rdropWhile space).dropWhile space =
      (s.toList.dropWhile space).rdropWhile space := by
    obtain ⟨rest, hrest⟩ := List.rdropWhile_prefix space (s.toList.dropWhile space)
    cases hdrop : (s.toList.dropWhile space).rdropWhile space with
    | nil => rfl
    | cons c cs =>
      rw [hdrop] at hrest
      have hc := List.head?_dropWhile_not space s.toList
      rw [← hrest, List.cons_append, List.head?_cons] at hc
      rw [List.dropWhile_cons, hc]
      rfl
  unfold trim
  rw [String.toList_ofList, hfirst, List.rdropWhile_idempotent]

end trim

/-- A text begins with one character only. -/
theorem startsWith_eq_false {s start start' : String} {c d : Char} (h : startsWith s start = true)
    (hc : start.toList.head? = some c) (hd : start'.toList.head? = some d) (hne : c ≠ d) : startsWith s start' = false := by
  refine Bool.eq_false_iff.mpr fun h' => hne ?_
  have hhead := head_of_startsWith h' hd
  rw [head_of_startsWith h hc, Option.some_inj] at hhead
  exact hhead

/-- A text begins with one of two starts, where neither begins with the other. -/
theorem strip_eq_none_of_startsWith {s start start' : String} (h : startsWith s start = true)
    (hne : startsWith start start' = false) (hne' : startsWith start' start = false) : strip s start' = none := by
  refine if_neg fun h' => ?_
  rcases List.prefix_or_prefix_of_prefix (List.isPrefixOf_iff_prefix.mp h) (List.isPrefixOf_iff_prefix.mp h')
    with hprefix | hprefix
  · exact Bool.false_ne_true (hne'.symm.trans (List.isPrefixOf_iff_prefix.mpr hprefix))
  · exact Bool.false_ne_true (hne.symm.trans (List.isPrefixOf_iff_prefix.mpr hprefix))

theorem startsWith_of_strip {s start rest : String} (h : strip s start = some rest) : startsWith s start = true := by
  unfold strip at h
  split at h
  · next hstarts => exact hstarts
  · cases h

theorem startsWith_toAsciiLowercase {s start : String} {c : Char} (h : startsWith s start = true)
    (hc : start.toList.head? = some c) : (toAsciiLowercase s).toList.head? = some c.toLower := by
  rw [toAsciiLowercase, String.toList_ofList, List.head?_map, head_of_startsWith h hc, Option.map_some]

end Text
