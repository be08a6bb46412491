import ApiDiscovery.Text.Blank
import Mathlib.Data.List.DropRight
import Mathlib.Data.List.TakeWhile

/-!
# Dropping at the ends of a text

What is dropped at the end of a text is the longest end of characters of one class. The text falls into what is kept
and that end (`exists_trimRight`), and no character of the class is left there (`getLast?_trimRight_ne`). What is kept
of two texts depends on whether anything is kept of the second one (`trimRight_append`), and it makes no difference at
which end is dropped first (`trimRight_dropWhile`).
-/

namespace ApiDiscovery.Text

variable (p : Char → Bool)

theorem trimRight_append (s t : List Char) :
    trimRight p (s ++ t) = if (trimRight p t).isEmpty then trimRight p s else s ++ trimRight p t := by
  unfold trimRight
  rw [List.reverse_append, List.dropWhile_append, List.isEmpty_reverse]
  split
  · rfl
  · rw [List.reverse_append, List.reverse_reverse]

theorem trimRight_cons (c : Char) (s : List Char) :
    trimRight p (c :: s) = if (trimRight p s).isEmpty then if p c then [] else [c] else c :: trimRight p s := by
  have hone : trimRight p [c] = if p c then [] else [c] := by
    cases hc : p c <;> simp [trimRight, hc]
  have happend := trimRight_append p [c] s
  rw [hone] at happend
  exact happend

theorem exists_trimRight (s : List Char) : ∃ t, s = trimRight p s ++ t ∧ ∀ c ∈ t, p c = true := by
  refine ⟨(s.reverse.takeWhile p).reverse, ?_, fun c hc => List.mem_takeWhile_imp (List.mem_reverse.1 hc)⟩
  rw [trimRight, ← List.reverse_append, List.takeWhile_append_dropWhile, List.reverse_reverse]

theorem trimRight_trimRight (s : List Char) : trimRight p (trimRight p s) = trimRight p s :=
  List.rdropWhile_idempotent p s

theorem head?_dropWhile_ne {c : Char} (hc : p c = true) (s : List Char) :
    (s.dropWhile p).head? ≠ some c := by
  intro hhead
  have hnot := List.head?_dropWhile_not p s
  rw [hhead] at hnot
  exact Bool.false_ne_true (hnot.symm.trans hc)

theorem getLast?_trimRight_ne {c : Char} (hc : p c = true) (s : List Char) :
    (trimRight p s).getLast? ≠ some c := by
  rw [trimRight, List.getLast?_reverse]
  exact head?_dropWhile_ne p hc s.reverse

/-- It makes no difference at which end is dropped first. -/
theorem trimRight_dropWhile (s : List Char) : trimRight p (s.dropWhile p) = (trimRight p s).dropWhile p := by
  induction s with
  | nil => rfl
  | cons c s ih =>
      cases hc : p c with
      | true =>
          rw [List.dropWhile_cons_of_pos hc, ih, trimRight_cons, hc]
          split
          next hempty =>
            rw [List.isEmpty_iff.1 hempty]
            rfl
          next => rw [List.dropWhile_cons_of_pos hc]
      | false =>
          have hkept : ¬ p c = true := by
            rw [hc]
            exact Bool.false_ne_true
          rw [List.dropWhile_cons_of_neg hkept, trimRight_cons, if_neg hkept]
          split
          · rw [List.dropWhile_cons_of_neg hkept]
          · rw [List.dropWhile_cons_of_neg hkept]

end ApiDiscovery.Text
