import Mathlib.Data.List.Basic
import Mathlib.Data.String.Basic

/-!
# In order and each once

What is listed is put in order, and of what is then the same in a row one is kept. Nothing is lost by that
(`mem_inOrder`), and what is left is strictly in order, by any total order (`pairwise_inOrder`) and so for texts
(`pairwise_textsInOrder`).
-/

namespace ApiDiscovery

section

variable {α : Type}

theorem eraseRepsBy_loop (r : α → α → Bool) (a : α) (l seen : List α) :
    List.eraseRepsBy.loop r a l seen = seen.reverse ++ List.eraseRepsBy.loop r a l [] := by
  induction l generalizing a seen with
  | nil => rw [List.eraseRepsBy.loop, List.eraseRepsBy.loop, List.reverse_cons, List.reverse_singleton]
  | cons b l ih =>
      rw [List.eraseRepsBy.loop, List.eraseRepsBy.loop]
      cases r a b with
      | true => exact ih a seen
      | false =>
          show List.eraseRepsBy.loop r b l (a :: seen) = seen.reverse ++ List.eraseRepsBy.loop r b l [a]
          rw [ih b (a :: seen), ih b [a], List.reverse_cons, List.reverse_singleton, List.append_assoc]

variable [BEq α]

theorem eraseReps_cons_cons (a b : α) (l : List α) :
    (a :: b :: l).eraseReps = if a == b then (a :: l).eraseReps else a :: (b :: l).eraseReps := by
  show List.eraseRepsBy.loop (· == ·) a (b :: l) [] = _
  rw [List.eraseRepsBy.loop]
  cases a == b with
  | true => rfl
  | false => exact eraseRepsBy_loop _ b l [a]

variable [LawfulBEq α]

theorem mem_eraseReps {l : List α} {x : α} : x ∈ l.eraseReps ↔ x ∈ l := by
  induction l with
  | nil => rfl
  | cons a l ih =>
      cases l with
      | nil => rfl
      | cons b l =>
          rw [eraseReps_cons_cons]
          split
          next heq =>
            obtain rfl := beq_iff_eq.1 heq
            rw [ih, List.mem_cons (l := a :: l), or_iff_right_of_imp]
            rintro rfl
            exact List.mem_cons_self
          next => rw [List.mem_cons, List.mem_cons, ih]

/-- In a list that is in order, what is the same stands in a row. -/
theorem pairwise_eraseReps {r : α → α → Prop} (hantisymm : ∀ a b, r a b → r b a → a = b) {l : List α}
    (h : l.Pairwise r) : l.eraseReps.Pairwise fun a b => r a b ∧ a ≠ b := by
  induction l with
  | nil => exact .nil
  | cons a l ih =>
      cases l with
      | nil => exact List.pairwise_singleton _ a
      | cons b l =>
          obtain ⟨hfirst, hrest⟩ := List.pairwise_cons.1 h
          rw [eraseReps_cons_cons]
          split
          next heq =>
            obtain rfl := beq_iff_eq.1 heq
            exact ih hrest
          next hne =>
            refine List.pairwise_cons.2 ⟨fun x hx => ?_, ih hrest⟩
            have hx := mem_eraseReps.1 hx
            refine ⟨hfirst x hx, ?_⟩
            rintro rfl
            rcases List.mem_cons.1 hx with rfl | hx
            · exact hne BEq.rfl
            · have hba := (List.pairwise_cons.1 hrest).1 a hx
              exact hne (beq_iff_eq.2 (hantisymm a b (hfirst b List.mem_cons_self) hba))

theorem mem_inOrder {r : α → α → Bool} {l : List α} {x : α} : x ∈ (l.mergeSort r).eraseReps ↔ x ∈ l := by
  rw [mem_eraseReps, List.mem_mergeSort]

theorem pairwise_inOrder {r : α → α → Bool}
    (htrans : ∀ a b c, r a b = true → r b c = true → r a c = true)
    (htotal : ∀ a b, (r a b || r b a) = true) (hantisymm : ∀ a b, r a b = true → r b a = true → a = b)
    (l : List α) : (l.mergeSort r).eraseReps.Pairwise fun a b => r a b = true ∧ a ≠ b :=
  pairwise_eraseReps hantisymm (List.pairwise_mergeSort htrans htotal l)

end

/-! ## Texts -/

/-- What is sorted by a text of each is in the order of these texts. -/
theorem pairwise_sortedBy {α : Type u} (key : α → String) (l : List α) :
    (l.mergeSort fun a b => key a ≤ key b).Pairwise fun a b => key a ≤ key b := by
  have htrans (a b c : α) (hab : decide (key a ≤ key b) = true) (hbc : decide (key b ≤ key c) = true) :
      decide (key a ≤ key c) = true :=
    decide_eq_true (String.le_trans (of_decide_eq_true hab) (of_decide_eq_true hbc))
  have htotal (a b : α) : (decide (key a ≤ key b) || decide (key b ≤ key a)) = true := by
    simpa only [Bool.or_eq_true, decide_eq_true_eq] using String.le_total (key a) (key b)
  exact (List.pairwise_mergeSort htrans htotal l).imp of_decide_eq_true

/-- Different texts in order are strictly in order. -/
theorem lt_of_le_and_ne {a b : String} (h : a ≤ b ∧ a ≠ b) : a < b :=
  String.not_le.1 fun hle => h.2 (String.le_antisymm h.1 hle)

theorem pairwise_textsInOrder (l : List String) :
    (l.mergeSort fun a b => a ≤ b).eraseReps.Pairwise (· < ·) :=
  (pairwise_eraseReps (fun _ _ => String.le_antisymm) (pairwise_sortedBy id l)).imp lt_of_le_and_ne

end ApiDiscovery
